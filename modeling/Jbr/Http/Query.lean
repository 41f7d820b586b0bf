import Jbr.Http.Handlers

/-!
# The query path

`POST /` runs the query of the body.  `ejdb_exec` calls `_jbr_query_visitor` once
per document; the visitor appends the document's frame `\r\n<id>\t<json>` to the
buffer `wbuf` (after the explain log and a line of dashes, the first time) and
calls `_jbr_flush_chunk`, which writes the chunked `200` header block once and
then a chunk whenever 4096 bytes are buffered.  `_jbr_on_query` ends at
`finish:`, where the code the run ended with picks the response.
-/

namespace Jbr.Http

open Jbr.Foundation

/-- `JBR_HTTP_CHUNK_SIZE` -/
def jbrHttpChunkSize : Nat := 4096

def dashes : Bytes := List.replicate 20 45

/-- `"\r\n%lld\t"` and the JSON of a document. -/
def frame (id : Int) (json : Bytes) : Bytes := crlf ++ decimal id ++ [9] ++ json

section Query

variable (B : Backend) (K : Codes)

/-- `iwxstr_cat (wbuf, data, len)`, which may fail to grow the buffer. -/
def wbufCat (data : Bytes) : Serve Unit := do
  attempt K.iwErrorAlloc
  modify fun c => { c with wbuf := some (c.wbuf.getD [] ++ data) }

/-- `if (!rctx->data_sent) { ... }` of `_jbr_flush_chunk` -/
def chunkHeaders : Serve Unit := do
  if (← get).dataSent then pure () else do
  jbrHttpSetContentType (lit "application/json")
  writeOut K .headers
  modify fun c => { c with dataSent := true }

/-- One chunk: `"%zX\r\n"` of the size, the buffer and `"\r\n"`; then `iwxstr_clear`. -/
def chunkWrite (data : Bytes) : Serve Unit := do
  writeOut K (.write (hexUpper data.length ++ crlf))
  writeOut K (.write data)
  writeOut K (.write crlf)
  modify fun c => { c with wbuf := some [] }

/-- `_jbr_flush_chunk (rctx, finish)` -/
def jbrFlushChunk (finish : Bool) : Serve Unit := do
  chunkHeaders K
  let wbuf := (← get).wbuf.getD []
  if !finish && wbuf.length < jbrHttpChunkSize then pure () else do
  (if 0 < wbuf.length then chunkWrite K wbuf else pure ())
  if finish then writeOut K (.write (lit "0\r\n\r\n")) else pure ()

/-- `if (!wbuf) { wbuf = iwxstr_new2 (1024U); ... rctx->wbuf = wbuf; }` -/
def visitorAlloc : Serve Unit := do
  if (← get).wbuf.isSome then pure () else do
  attempt K.iwErrorAlloc
  modify fun c => { c with wbuf := some [] }

/-- `if (rctx->explain) { ... }` -/
def visitorExplain : Serve Unit := do
  match (← get).explain with
  | none => pure ()
  | some log => do
      wbufCat K log
      wbufCat K dashes
      modify fun c => { c with explain := none }

/-- `_jbr_query_visitor (ctx, doc, step)` -/
def jbrQueryVisitor (doc : Doc) : Serve Unit := do
  visitorAlloc K
  visitorExplain K
  wbufCat K (crlf ++ decimal doc.id ++ [9])
  if doc.json.1 ≠ 0 then throw doc.json.1 else
  modify fun c => { c with wbuf := some (c.wbuf.getD [] ++ doc.json.2) }
  jbrFlushChunk K false

/-- `ejdb_exec (&ux)` -/
def ejdbExec (run : ExecRun) (log : Bool) : Serve Unit := do
  (if log then modify fun c => { c with explain := c.explain.map (· ++ run.log) } else pure ())
  run.docs.forM (jbrQueryVisitor K)
  if run.rc ≠ 0 then throw run.rc else pure ()

/-- `rctx->explain = iwxstr_new (); ... ux.log = rctx->explain;` -/
def explainAlloc (explain : Bool) : Serve Unit :=
  if explain then do
    attempt K.iwErrorAlloc
    modify fun c => { c with explain := some [] }
  else pure ()

/-- `if (!rc && rctx->wbuf) { ... _jbr_flush_chunk (rctx, true); }` -/
def queryFlush : Serve Unit := do
  if (← get).wbuf.isSome then do
    wbufCat K crlf
    jbrFlushChunk K true
  else pure ()

/-- `_jbr_on_query` from the `X-Hints` header to `finish:` -/
def queryExec (q : Bytes) (explain : Bool) : Serve Unit := do
  explainAlloc K explain
  emit (.exec q explain)
  ejdbExec K (B.exec q) explain
  queryFlush K

/-- `strstr (hv.data, "explain")` on a single `X-Hints` value -/
def hintsExplain : Header → Bool
  | .single v => strstr v (lit "explain")
  | _ => false

def rcOf (x : Serve Unit) : Serve Iwrc := fun c =>
  match x.run c with
  | .ok _ c' => .ok 0 c'
  | .error rc c' => .ok rc c'

/-- `finish:` of `_jbr_on_query` -/
def queryFinish (q : Bytes) (rc : Iwrc) : Serve Unit := do
  let sent := (← get).dataSent
  (if rc ≠ 0 then
    if iwrcStripCode rc = K.jqlErrorQueryParse then
      jbrHttpSend 400 (some (lit "text/plain")) (B.jqlError q)
    else if iwrcStripCode rc = K.jqlErrorNoCollection then
      jbrRcReport B 400 (iwrcStripCode rc)
    else if sent then emit .complete
    else jbrRcReport B 500 (iwrcStripCode rc)
  else if sent then emit .complete
  else jbrHttpSend 200 none [])
  modify fun c => { c with explain := none, wbuf := none }

/-- `_jbr_on_query (rctx)` -/
def jbrOnQuery (req : HttpRequest) (ctx : JbrCtx) : Serve Unit :=
  if req.body.length < 1 then jbrHttpErrorSend 400 else do
  let q := cstr req.body
  emit (.jqlCreate q)
  if B.jqlCreate q ≠ 0 then queryFinish B K q (B.jqlCreate q) else
  if ctx.readAnon ∧ B.jqlHasApply q then jbrHttpErrorSend 403 else
  match req.hints with
  | .repeated => jbrHttpErrorSend 400
  | h => do queryFinish B K q (← rcOf (queryExec B K q (hintsExplain h)))

end Query

/-! ## What the query path can send -/

def Event.wire : Event → Bool
  | .headers => true
  | .write _ => true
  | _ => false

def Event.isMutation : Event → Bool
  | .put .. => true
  | .putNew .. => true
  | .patch .. => true
  | .remove .. => true
  | _ => false

section Effects

variable (B : Backend) (K : Codes)

theorem wbufCat_emits {P : Event → Prop} (data : Bytes) : Emits (wbufCat K data) P :=
  Emits.bind (attempt_emits _) fun _ => Emits.modify fun _ => rfl

theorem jbrFlushChunk_emits (finish : Bool) : Emits (jbrFlushChunk K finish) (·.wire) := by
  have hh : Emits (chunkHeaders K) (·.wire) :=
    Emits.bind Emits.get fun _ => Emits.ite (Emits.pure _) (Emits.bind (Emits.modify fun _ => rfl)
      fun _ => Emits.bind (writeOut_emits K rfl) fun _ => Emits.modify fun _ => rfl)
  have hw : ∀ data, Emits (chunkWrite K data) (·.wire) := fun _ =>
    Emits.bind (writeOut_emits K rfl) fun _ => Emits.bind (writeOut_emits K rfl) fun _ =>
      Emits.bind (writeOut_emits K rfl) fun _ => Emits.modify fun _ => rfl
  exact Emits.bind hh fun _ => Emits.bind Emits.get fun _ => Emits.ite (Emits.pure _)
    (Emits.bind (Emits.ite (hw _) (Emits.pure _)) fun _ =>
      Emits.ite (writeOut_emits K rfl) (Emits.pure _))

theorem jbrQueryVisitor_emits (doc : Doc) : Emits (jbrQueryVisitor K doc) (·.wire) := by
  have ha : Emits (visitorAlloc K) (·.wire) :=
    Emits.bind Emits.get fun _ => Emits.ite (Emits.pure _)
      (Emits.bind (attempt_emits _) fun _ => Emits.modify fun _ => rfl)
  have he : Emits (visitorExplain K) (·.wire) := by
    refine Emits.bind Emits.get fun c => ?_
    cases c.explain with
    | none => exact Emits.pure _
    | some log =>
        exact Emits.bind (wbufCat_emits K _) fun _ => Emits.bind (wbufCat_emits K _) fun _ =>
          Emits.modify fun _ => rfl
  exact Emits.bind ha fun _ => Emits.bind he fun _ => Emits.bind (wbufCat_emits K _) fun _ =>
    Emits.ite (Emits.throw _) (Emits.bind (Emits.modify fun _ => rfl) fun _ =>
      jbrFlushChunk_emits K false)

theorem explainAlloc_emits {P : Event → Prop} (explain : Bool) :
    Emits (explainAlloc K explain) P :=
  Emits.ite (Emits.bind (attempt_emits _) fun _ => Emits.modify fun _ => rfl) (Emits.pure _)

theorem ejdbExec_emits (run : ExecRun) (log : Bool) : Emits (ejdbExec K run log) (·.wire) :=
  Emits.bind (Emits.ite (Emits.modify fun _ => rfl) (Emits.pure _)) fun _ =>
    Emits.bind (Emits.forM fun d _ => jbrQueryVisitor_emits K d) fun _ =>
      Emits.ite (Emits.throw _) (Emits.pure _)

theorem queryFlush_emits : Emits (queryFlush K) (·.wire) :=
  Emits.bind Emits.get fun _ => Emits.ite
    (Emits.bind (wbufCat_emits K _) fun _ => jbrFlushChunk_emits K true) (Emits.pure _)

theorem queryExec_emits (q : Bytes) (explain : Bool) :
    Emits (queryExec B K q explain) (fun e => e.wire ∨ e = .exec q explain) :=
  Emits.bind (explainAlloc_emits K _) fun _ => Emits.bind (emit_emits (Or.inr rfl)) fun _ =>
    Emits.bind ((ejdbExec_emits K _ _).mono fun _ => Or.inl) fun _ =>
      (queryFlush_emits K).mono fun _ => Or.inl

theorem rcOf_run (x : Serve Unit) (c : Conn) :
    ∃ rc, (rcOf x).run c = .ok rc (endConn (x.run c)) := by
  dsimp only [rcOf, EStateM.run]
  cases x c <;> exact ⟨_, rfl⟩

theorem rcOf_run_ok {x : Serve Unit} {c c' : Conn} (h : x.run c = .ok () c') :
    (rcOf x).run c = .ok 0 c' := by
  dsimp only [rcOf, EStateM.run] at h ⊢
  rw [h]

theorem rcOf_run_error {x : Serve Unit} {c c' : Conn} {rc : Iwrc} (h : x.run c = .error rc c') :
    (rcOf x).run c = .ok rc c' := by
  dsimp only [rcOf, EStateM.run] at h ⊢
  rw [h]

theorem rcOf_hoare {P I E : Conn → Prop} {x : Serve Unit} (h : Hoare P x (fun _ => I) I) :
    Hoare P (rcOf x) (fun _ => I) E := by
  intro c hc
  obtain ⟨rc, hrc⟩ := rcOf_run x c
  have h := h c hc
  rw [hrc]
  revert h
  cases x.run c <;> exact id

theorem rcOf_emits {P : Event → Prop} {x : Serve Unit} (h : Emits x P) : Emits (rcOf x) P := by
  intro c
  obtain ⟨t, ht, hP⟩ := h c
  refine ⟨t, ?_, hP⟩
  show (endConn (match x.run c with | .ok _ c' => _ | .error rc c' => _)).out = _
  revert ht
  cases x.run c <;> exact id

def Event.reply : Event → Bool
  | .send .. => true
  | .complete => true
  | _ => false

theorem Event.inert {e : Event} (h : e.reply ∨ e.wire) :
    e.isMutation = false ∧ ∀ q l, e ≠ .exec q l := by
  cases e <;> simp_all [Event.reply, Event.wire, Event.isMutation]

theorem queryFinish_emits (q : Bytes) (rc : Iwrc) :
    Emits (queryFinish B K q rc) (·.reply) :=
  Emits.bind Emits.get fun _ => Emits.bind
    (Emits.ite (Emits.ite (jbrHttpSend_emits fun _ => rfl) (Emits.ite (jbrHttpSend_emits fun _ => rfl)
      (Emits.ite (emit_emits rfl) (jbrHttpSend_emits fun _ => rfl))))
      (Emits.ite (emit_emits rfl) (jbrHttpSend_emits fun _ => rfl)))
    fun _ => Emits.modify fun _ => rfl

theorem jbrOnQuery_emits (req : HttpRequest) (ctx : JbrCtx) :
    Emits (jbrOnQuery B K req ctx)
      (fun e => e.isMutation = false ∧ ∀ q l, e = .exec q l → ¬ (ctx.readAnon ∧ B.jqlHasApply q)) := by
  have hi : ∀ e : Event, (e.reply ∨ e.wire) → e.isMutation = false ∧
      ∀ q l, e = .exec q l → ¬ (ctx.readAnon ∧ B.jqlHasApply q) := fun e he =>
    ⟨(Event.inert he).1, fun q l h => absurd h ((Event.inert he).2 q l)⟩
  have hf : ∀ q rc, Emits (queryFinish B K q rc) (fun e => e.isMutation = false ∧
      ∀ q l, e = .exec q l → ¬ (ctx.readAnon ∧ B.jqlHasApply q)) := fun q rc =>
    (queryFinish_emits B K q rc).mono fun e he => hi e (.inl he)
  have hs : ∀ st, Emits (jbrHttpErrorSend st) (fun e => e.isMutation = false ∧
      ∀ q l, e = .exec q l → ¬ (ctx.readAnon ∧ B.jqlHasApply q)) := fun _ =>
    jbrHttpSend_emits fun _ => hi _ (.inl rfl)
  unfold jbrOnQuery
  refine Emits.ite (hs _) ?_
  refine Emits.bind (emit_emits ⟨rfl, fun _ _ => nofun⟩) fun _ => Emits.ite (hf _ _) ?_
  refine Emits.cond (fun _ => hs _) fun hanon => ?_
  have hx : ∀ e, Emits (queryExec B K (cstr req.body) e) (fun e => e.isMutation = false ∧
      ∀ q l, e = .exec q l → ¬ (ctx.readAnon ∧ B.jqlHasApply q)) := fun ex =>
    (queryExec_emits B K _ ex).mono fun e he => by
      rcases he with he | rfl
      · exact hi e (.inr he)
      · exact ⟨rfl, fun q l h => by cases h; exact hanon⟩
  split
  · exact hs _
  · exact Emits.bind (rcOf_emits (hx _)) fun _ => hf _ _

theorem explainAlloc_run (explain : Bool) (c : Conn) (hio : c.io = []) :
    (explainAlloc K explain).run c =
      .ok () { c with explain := if explain then some [] else c.explain } := by
  obtain ⟨out, io, ds, wb, ex, ct⟩ := c
  subst hio
  cases explain <;> simp [explainAlloc, attempt, ioOk_run]

theorem queryExec_run_exec (q : Bytes) (explain : Bool) (c : Conn) (hio : c.io = []) :
    ∃ t, (endConn ((queryExec B K q explain).run c)).out = c.out ++ .exec q explain :: t := by
  obtain ⟨t, ht, -⟩ := Emits.bind (P := fun _ => True)
    ((ejdbExec_emits K (B.exec q) explain).mono fun _ _ => trivial)
    (fun _ => (queryFlush_emits K).mono fun _ _ => trivial)
    { c with explain := if explain then some [] else c.explain, out := c.out ++ [.exec q explain] }
  refine ⟨t, ?_⟩
  simp only [queryExec, run_bind, explainAlloc_run K explain c hio, emit_run]
  simpa using ht

/-- A single `X-Hints` value `v` runs the query with the explain log attached exactly
when `strstr` finds `explain` in `v`; with every call succeeding, a query that
compiles and is allowed is run. -/
theorem jbrOnQuery_explainLog (req : HttpRequest) (ctx : JbrCtx) {v : Bytes}
    (hv : req.hints = .single v) :
    Emits (jbrOnQuery B K req ctx)
      (fun e => ∀ q l, e = .exec q l → l = strstr v (lit "explain")) ∧
    (0 < req.body.length → B.jqlCreate (cstr req.body) = 0 →
      ¬ (ctx.readAnon ∧ B.jqlHasApply (cstr req.body)) →
      .exec (cstr req.body) (strstr v (lit "explain")) ∈
        (endConn ((jbrOnQuery B K req ctx).run (Conn.init []))).out) := by
  constructor
  · have hf : ∀ q rc, Emits (queryFinish B K q rc)
        (fun e => ∀ q l, e = .exec q l → l = strstr v (lit "explain")) := fun q rc =>
      (queryFinish_emits B K q rc).mono fun e he q l h => absurd h ((Event.inert (.inl he)).2 q l)
    unfold jbrOnQuery
    refine Emits.ite (jbrHttpSend_emits nofun) (Emits.bind (emit_emits nofun) fun _ =>
      Emits.ite (hf _ _) (Emits.ite (jbrHttpSend_emits nofun) ?_))
    rw [hv]
    refine Emits.bind (rcOf_emits ((queryExec_emits B K _ _).mono fun e he => ?_)) fun _ => hf _ _
    rcases he with he | rfl
    · exact fun q l h => absurd h ((Event.inert (.inr he)).2 q l)
    · rintro q l ⟨-, rfl⟩
      rfl
  · intro hbody hq hanon
    set c₁ : Conn := ⟨[.jqlCreate (cstr req.body)], [], false, none, none, none⟩
    set x := queryExec B K (cstr req.body) (strstr v (lit "explain"))
    obtain ⟨t, ht⟩ := queryExec_run_exec B K (cstr req.body) (strstr v (lit "explain")) c₁ rfl
    obtain ⟨rc, hrc⟩ := rcOf_run x c₁
    obtain ⟨t', ht', -⟩ := queryFinish_emits B K (cstr req.body) rc (endConn (x.run c₁))
    simp only [jbrOnQuery, show ¬ req.body.length < 1 by omega, hq, hanon, hv, hintsExplain,
      if_false, ne_eq, not_true_eq_false, run_bind, emit_run, Conn.init, List.nil_append]
    rw [hrc]
    dsimp only
    rw [ht', ht]
    simp

/-- The comma-separated, trimmed tokens of an `X-Hints` value: how the description reads it. -/
def hintTokens (v : Bytes) : List Bytes :=
  (v.splitOn 44).map fun t => ((t.dropWhile isspace).reverse.dropWhile isspace).reverse

end Effects

/-! ## The buffers -/

section Release

variable (B : Backend) (K : Codes)

theorem queryFinish_releases (q : Bytes) (rc : Iwrc) (c : Conn) :
    (endConn ((queryFinish B K q rc).run c)).wbuf = none ∧
      (endConn ((queryFinish B K q rc).run c)).explain = none := by
  unfold queryFinish
  simp only [run_bind, run_get]
  split_ifs <;> exact ⟨rfl, rfl⟩

/-- `_jbr_on_query` leaves no buffer behind: from a request context that holds none,
for every backend answer and every outcome of the calls that can fail, `wbuf` and
`explain` are both `NULL` when it returns. -/
theorem jbrOnQuery_releases (req : HttpRequest) (ctx : JbrCtx) (c : Conn) (hw : c.wbuf = none)
    (he : c.explain = none) :
    (endConn ((jbrOnQuery B K req ctx).run c)).wbuf = none ∧
      (endConn ((jbrOnQuery B K req ctx).run c)).explain = none := by
  unfold jbrOnQuery
  split_ifs
  · exact ⟨hw, he⟩
  simp only [run_bind, emit_run]
  split_ifs
  · exact queryFinish_releases B K _ _ _
  · exact ⟨hw, he⟩
  split
  · exact ⟨hw, he⟩
  · obtain ⟨rc, hrc⟩ := rcOf_run (queryExec B K (cstr req.body) (hintsExplain req.hints))
      { c with out := c.out ++ [.jqlCreate (cstr req.body)] }
    simp only [run_bind, hrc]
    exact queryFinish_releases B K _ _ _

end Release

theorem jbrOnQuery_releases_sample :
    (endConn ((jbrOnQuery Backend.ok Codes.sample ⟨lit "POST", some [47], .absent,
      .single (lit "explain"), lit "q", 0⟩ ⟨.post, none, 0, false⟩).run (Conn.init [true, false]))).wbuf =
        none ∧
    (endConn ((jbrOnQuery Backend.ok Codes.sample ⟨lit "POST", some [47], .absent,
      .single (lit "explain"), lit "q", 0⟩ ⟨.post, none, 0, false⟩).run (Conn.init [true, false]))).explain =
        none :=
  jbrOnQuery_releases Backend.ok Codes.sample ⟨lit "POST", some [47], .absent, .single (lit "explain"),
    lit "q", 0⟩ ⟨.post, none, 0, false⟩ (Conn.init [true, false]) rfl rfl


end Jbr.Http
