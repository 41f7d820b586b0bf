import Jbr.Http.FillCtx

/-!
# The document handlers

`_jbr_on_get`, `_jbr_on_post`, `_jbr_on_put`, `_jbr_on_patch` and `_jbr_on_delete`
each serve one REST operation on `rctx->collection` and `rctx->id`, and answer with
`_jbr_http_send`, directly or through `JBR_RC_REPORT`.  `statuses` lists the
responses among the events of a run.  Every handler but `_jbr_on_patch` answers
exactly once; `_jbr_on_patch` reports a parse or patch error with `400` and then
falls through to the `500` report of every non-zero code.
-/

namespace Jbr.Http

open Jbr.Foundation

/-- `JBR_HEAD` in `jbr_method_t` -/
def jbrHead : Nat := 6

section Handlers

variable (B : Backend) (K : Codes)

/-- `_jbr_on_get`, for `GET` and `HEAD` -/
def jbrOnGet (req : HttpRequest) (ctx : JbrCtx) : Serve Unit := do
  let coll := ctx.collection.getD []
  emit (.get coll ctx.id)
  let (rc, jbl) := B.get coll ctx.id
  if rc = K.iwkvErrorNotfound then jbrHttpErrorSend 404
  else if rc ≠ 0 then jbrRcReport B 500 rc
  else if req.methodObj = jbrHead then
    if (B.countJson jbl).1 ≠ 0 then jbrRcReport B 500 (B.countJson jbl).1
    else jbrHttpSend 200 (some (lit "application/json")) []
  else if ← ioOk then
    if (B.asJson jbl).1 ≠ 0 then jbrRcReport B 500 (B.asJson jbl).1
    else jbrHttpSend 200 (some (lit "application/json")) (B.asJson jbl).2
  else jbrRcReport B 500 K.iwErrorAlloc

/-- `_jbr_on_post` -/
def jbrOnPost (req : HttpRequest) (ctx : JbrCtx) : Serve Unit :=
  if ctx.readAnon then jbrHttpErrorSend 403 else
  if req.body.length < 1 then jbrHttpErrorSend 400 else
  let (rc, jbl) := B.fromJson (cstr req.body)
  if rc ≠ 0 then jbrRcReport B 400 rc else do
  let coll := ctx.collection.getD []
  emit (.putNew coll jbl)
  let (rc, id) := B.putNew coll jbl
  if rc ≠ 0 then jbrRcReport B 500 rc
  else jbrHttpSend 200 (some (lit "text/plain")) (decimal id)

/-- `_jbr_on_put` -/
def jbrOnPut (req : HttpRequest) (ctx : JbrCtx) : Serve Unit :=
  if ctx.readAnon then jbrHttpErrorSend 403 else
  if req.body.length < 1 then jbrHttpErrorSend 400 else
  let (rc, jbl) := B.fromJson (cstr req.body)
  if rc ≠ 0 then jbrRcReport B 400 rc else do
  let coll := ctx.collection.getD []
  emit (.put coll jbl ctx.id)
  let rc := B.put coll jbl ctx.id
  if rc ≠ 0 then jbrRcReport B 500 rc else jbrHttpSend 200 none []

/-- `_jbr_on_patch`.  The `400` of the `switch` is not followed by a `return`. -/
def jbrOnPatch (req : HttpRequest) (ctx : JbrCtx) : Serve Unit :=
  if ctx.readAnon then jbrHttpErrorSend 403 else
  if req.body.length < 1 then jbrHttpErrorSend 400 else do
  let coll := ctx.collection.getD []
  emit (.patch coll (cstr req.body) ctx.id)
  let rc := iwrcStripCode (B.patch coll (cstr req.body) ctx.id)
  (if rc ∈ K.jblPatchErrors then jbrRcReport B 400 rc else pure ())
  if rc ≠ 0 then jbrRcReport B 500 rc else jbrHttpSend 200 none []

/-- `_jbr_on_delete` -/
def jbrOnDelete (ctx : JbrCtx) : Serve Unit :=
  if ctx.readAnon then jbrHttpErrorSend 403 else do
  let coll := ctx.collection.getD []
  emit (.remove coll ctx.id)
  let rc := B.remove coll ctx.id
  if rc = K.iwkvErrorNotfound then jbrHttpErrorSend 404
  else if rc ≠ 0 then jbrRcReport B 500 rc
  else jbrHttpSend 200 none []

end Handlers

/-! ## Responses -/

def statuses : List Event → List Nat
  | [] => []
  | .send st _ _ :: t => st :: statuses t
  | .sendError st :: t => st :: statuses t
  | _ :: t => statuses t

@[simp] theorem statuses_append (a b : List Event) :
    statuses (a ++ b) = statuses a ++ statuses b := by
  induction a with
  | nil => rfl
  | cons e a ih => cases e <;> simp [statuses, ih]

def Replies {α : Type} (x : Serve α) (sts : List Nat) : Prop :=
  ∀ c, ∃ t, (endConn (x.run c)).out = c.out ++ t ∧ statuses t = sts

def RepliesOnce {α : Type} (x : Serve α) : Prop :=
  ∀ c, ∃ t st, (endConn (x.run c)).out = c.out ++ t ∧ statuses t = [st]

namespace RepliesOnce

variable {α : Type}

theorem send (st : Nat) (ct : Option Bytes) (body : Bytes) : RepliesOnce (jbrHttpSend st ct body) :=
  fun c => ⟨[.send st (c.ctype.or ct) body], st, by simp, rfl⟩

theorem ite {p : Prop} [Decidable p] {x y : Serve α} (hx : RepliesOnce x) (hy : RepliesOnce y) :
    RepliesOnce (if p then x else y) := by
  split
  · exact hx
  · exact hy

theorem emit_bind {e : Event} {f : Unit → Serve α} (he : statuses [e] = [])
    (h : RepliesOnce (f ())) : RepliesOnce (emit e >>= f) := fun c => by
  obtain ⟨t, st, ht, hs⟩ := h { c with out := c.out ++ [e] }
  exact ⟨e :: t, st, by simpa using ht, (statuses_append [e] t).trans (by rw [he, hs]; rfl)⟩

theorem ioOk_bind {f : Bool → Serve α} (h : ∀ b, RepliesOnce (f b)) : RepliesOnce (ioOk >>= f) := by
  intro c
  rw [ioOk_bind_run]
  split
  · exact h true c
  · exact h _ _

end RepliesOnce

section Replies

variable (B : Backend) (K : Codes)

theorem jbrOnGet_repliesOnce (req : HttpRequest) (ctx : JbrCtx) :
    RepliesOnce (jbrOnGet B K req ctx) := by
  have s := RepliesOnce.send
  unfold jbrOnGet
  exact .emit_bind rfl (.ite (s _ _ _) (.ite (s _ _ _) (.ite (.ite (s _ _ _) (s _ _ _))
    (.ioOk_bind fun _ => .ite (.ite (s _ _ _) (s _ _ _)) (s _ _ _)))))

theorem jbrOnPost_repliesOnce (req : HttpRequest) (ctx : JbrCtx) :
    RepliesOnce (jbrOnPost B req ctx) := by
  have s := RepliesOnce.send
  unfold jbrOnPost
  refine .ite (s _ _ _) (.ite (s _ _ _) ?_)
  split
  exact .ite (s _ _ _) (.emit_bind rfl (by split; exact .ite (s _ _ _) (s _ _ _)))

theorem jbrOnPut_repliesOnce (req : HttpRequest) (ctx : JbrCtx) :
    RepliesOnce (jbrOnPut B req ctx) := by
  have s := RepliesOnce.send
  unfold jbrOnPut
  refine .ite (s _ _ _) (.ite (s _ _ _) ?_)
  split
  exact .ite (s _ _ _) (.emit_bind rfl (.ite (s _ _ _) (s _ _ _)))

theorem jbrOnDelete_repliesOnce (ctx : JbrCtx) : RepliesOnce (jbrOnDelete B K ctx) := by
  have s := RepliesOnce.send
  unfold jbrOnDelete
  exact .ite (s _ _ _) (.emit_bind rfl (.ite (s _ _ _) (.ite (s _ _ _) (s _ _ _))))

abbrev patchCode (req : HttpRequest) (ctx : JbrCtx) : Iwrc :=
  iwrcStripCode (B.patch (ctx.collection.getD []) (cstr req.body) ctx.id)

theorem jbrOnPatch_repliesOnce (req : HttpRequest) (ctx : JbrCtx)
    (h : patchCode B req ctx ∉ K.jblPatchErrors) : RepliesOnce (jbrOnPatch B K req ctx) := by
  have s := RepliesOnce.send
  unfold jbrOnPatch
  refine .ite (s _ _ _) (.ite (s _ _ _) (.emit_bind rfl ?_))
  dsimp only
  rw [if_neg h]
  exact .ite (s _ _ _) (s _ _ _)

/-- A parse or patch error of `ejdb_patch` is reported twice: `400`, then `500`. -/
theorem jbrOnPatch_reports_twice (req : HttpRequest) (ctx : JbrCtx)
    (hanon : ctx.readAnon = false) (hbody : 0 < req.body.length)
    (h : patchCode B req ctx ∈ K.jblPatchErrors) : Replies (jbrOnPatch B K req ctx) [400, 500] := by
  have hpos : 0 < patchCode B req ctx := (K.valid _ (List.mem_append_right _ h)).1
  intro c
  simp only [jbrOnPatch, patchCode] at h hpos ⊢
  simp [hanon, show ¬ req.body.length < 1 by omega, h, Nat.pos_iff_ne_zero.mp hpos,
    jbrRcReport, statuses]

theorem jbrOnPatch_reports_twice_sample :
    Replies (jbrOnPatch { Backend.ok with patch := fun _ _ _ => 13 } Codes.sample
      ⟨lit "PATCH", some (lit "/c/1"), .absent, .absent, lit "[]", 0⟩
      ⟨.patch, some (lit "c"), 1, false⟩) [400, 500] :=
  jbrOnPatch_reports_twice { Backend.ok with patch := fun _ _ _ => 13 } Codes.sample
    ⟨lit "PATCH", some (lit "/c/1"), .absent, .absent, lit "[]", 0⟩
    ⟨.patch, some (lit "c"), 1, false⟩ rfl (by decide) (by decide)

end Replies

end Jbr.Http
