import Jbr.Http.Conn

/-!
# The request line: `_jbr_fill_ctx`

`_jbr_fill_ctx` maps the method to a `jbr_method_t` and splits the path, a C string
of `path.len` bytes followed by its NUL, at the first `'/'` after the leading one.
`jbrFillPath` follows the C code on the bytes of `p ++ [0]`, logging every access;
`fillPath` reads the same decisions off the list `p`.  `jbrFillPath_yields` shows
that the two agree and that every access stays within the path, its terminator
and the stack buffers `nbuf` and `cname`.
-/

namespace Jbr.Http

open Jbr.Foundation

/-- `_jbr_fill_ctx`'s `switch (method.len)`, with `strncmp` against each name. -/
def methodOf (m : Bytes) : Option Method :=
  match m.length with
  | 3 =>
      if strncmpEq (lit "GET") m 3 then some .get
      else if strncmpEq (lit "PUT") m 3 then some .put else none
  | 4 =>
      if strncmpEq (lit "POST") m 4 then some .post
      else if strncmpEq (lit "HEAD") m 4 then some .head else none
  | 5 => if strncmpEq (lit "PATCH") m 5 then some .patch else none
  | 6 => if strncmpEq (lit "DELETE") m 6 then some .delete else none
  | _ => none

/-- The fields of `JBRCTX` that `_jbr_fill_ctx` and the token gate set. -/
structure JbrCtx where
  method : Method
  /-- `collection` with `collection_len`; `none` for `NULL` -/
  collection : Option Bytes
  id : Int
  readAnon : Bool
  deriving DecidableEq, Repr

/-- `finish: return (r->collection_len <= EJDB_COLLECTION_NAME_MAX_LEN);` -/
def fillFinish (L : Limits) (ctx : JbrCtx) : Option JbrCtx :=
  if ((ctx.collection.getD []).length ≤ L.collectionNameMaxLen) then some ctx else none

/-! ## The C code -/

/-- `strchr (s, '/')` from offset `i`. -/
def strchrLoop (mem : Bytes) : Nat → Nat → Mem (Option Nat)
  | 0, _ => pure none
  | fuel + 1, i => do
      let b ← load mem i
      if b = 47 then pure (some i)
      else if b = 0 then pure none
      else strchrLoop mem fuel (i + 1)

/-- `path.len == 1 && path.data[0] == '/'` -/
def isRootPath (mem : Bytes) (len : Nat) : Mem Bool :=
  if len = 1 then (· == 47) <$> load mem 0 else pure false

/-- `_jbr_fill_ctx` from `fio_str_info_s path = fiobj_obj2cstr (req->path)` on. -/
def jbrFillPath (L : Limits) (m : Method) (p : Bytes) : Mem (Option JbrCtx) := do
  let mem := p ++ [0]
  if ← isRootPath mem p.length then return some ⟨m, none, 0, false⟩ else
  if p.length < 2 then return none else
  match ← strchrLoop mem mem.length 1 with
  | none =>
      if 1 < p.length then
        match m with
        | .post => return fillFinish L ⟨m, some (p.drop 1), 0, false⟩
        | _ => return none
      else if m ≠ .post then return none
      else return fillFinish L ⟨m, none, 0, false⟩
  | some c =>
      let coll := (p.drop 1).take (c - 1)
      let nlen := cInt (p.length - c - 1)
      if nlen < 1 then return fillFinish L ⟨m, some coll, 0, false⟩ else
      if (L.numBufSize - 1 : Int) < nlen then return none else
      memcpy .nbuf (c + 1) nlen.toNat
      store .nbuf nlen
      let nbuf := window mem (c + 1) nlen.toNat
      let (id, e) := strtoll nbuf
      if nbuf.getD e 0 ≠ 0 ∨ id < 1 ∨ m = .post then return none
      else return fillFinish L ⟨m, some coll, id, false⟩

/-- `_jbr_fill_ctx (req, &rctx)` -/
def jbrFillCtx (L : Limits) (method : Bytes) (path : Option Bytes) : Mem (Option JbrCtx) :=
  match methodOf method with
  | none => pure none
  | some m =>
      match path with
      | none => pure (some ⟨m, none, 0, false⟩)
      | some p => jbrFillPath L m p

/-- `memcpy (cname, rctx.collection, rctx.collection_len); cname[rctx.collection_len] = '\0';` -/
def jbrCopyCname (ctx : JbrCtx) : Mem Unit :=
  match ctx.collection with
  | some coll => do
      memcpy .cname 1 coll.length
      store .cname coll.length
  | none => pure ()

/-! ## The same decisions on the bytes of the path -/

def segByte (b : UInt8) : Bool := b != 47 && b != 0

def segment (p : Bytes) : Bytes := (p.drop 1).takeWhile segByte

/-- `_jbr_fill_ctx` on the path `p`. -/
def fillPath (L : Limits) (m : Method) (p : Bytes) : Option JbrCtx :=
  if p = [47] then some ⟨m, none, 0, false⟩ else
  if p.length < 2 then none else
  if (p.drop (1 + (segment p).length)).head? = some 47 then
    let d := p.drop (2 + (segment p).length)
    let nlen := cInt d.length
    if nlen < 1 then fillFinish L ⟨m, some (segment p), 0, false⟩ else
    if (L.numBufSize - 1 : Int) < nlen then none else
    let nbuf := d.take nlen.toNat
    if nbuf.getD (strtoll nbuf).2 0 ≠ 0 ∨ (strtoll nbuf).1 < 1 ∨ m = .post then none
    else fillFinish L ⟨m, some (segment p), (strtoll nbuf).1, false⟩
  else if m = .post then fillFinish L ⟨m, some (p.drop 1), 0, false⟩ else none

/-- `_jbr_fill_ctx` on the request line. -/
def fillCtx (L : Limits) (method : Bytes) (path : Option Bytes) : Option JbrCtx :=
  match methodOf method, path with
  | none, _ => none
  | some m, none => some ⟨m, none, 0, false⟩
  | some m, some p => fillPath L m p

/-! ## The C code reads the path as `fillPath` says -/

/-- Where `_jbr_fill_ctx` and the copy into `cname` may touch memory for a path of `n` bytes. -/
def InPath (L : Limits) (n : Nat) : Access → Prop
  | .read o => o ≤ n
  | .write b i => (b = .nbuf ∨ b = .cname) ∧ 0 ≤ i ∧ i < b.size L

section Path

variable {L : Limits}

private abbrev seg (p : Bytes) (i : Nat) : Bytes :=
  (p.drop i).takeWhile segByte

theorem strchrLoop_yields (p : Bytes) (fuel i : Nat) (hip : i ≤ p.length)
    (hf : p.length - i < fuel) :
    Yields (strchrLoop (p ++ [0]) fuel i)
      (some (if (p.drop (i + (seg p i).length)).head? = some 47
        then some (i + (seg p i).length) else none)) (InPath L p.length) := by
  induction fuel generalizing i with
  | zero => omega
  | succ fuel ih =>
      refine Yields.bind (load_yields _ _ (show i ≤ p.length from hip)) ?_
      by_cases hi : i < p.length
      · have hget : (p ++ [0]).getD i 0 = p[i] := by
          rw [List.getD_eq_getElem?_getD, List.getElem?_append_left hi,
            List.getElem?_eq_getElem hi, Option.getD_some]
        rw [hget]
        have hdrop := List.drop_eq_getElem_cons hi
        by_cases h47 : p[i] = 47
        · simpa [seg, segByte, hdrop, h47] using Yields.pure (some i)
        by_cases h0 : p[i] = 0
        · simpa [seg, segByte, hdrop, h0] using Yields.pure none
        have hstep : seg p i = p[i] :: seg p (i + 1) := by
          rw [seg, hdrop, List.takeWhile_cons_of_pos (by simp [segByte, h47, h0])]
        have := ih (i + 1) hi (by omega)
        simp only [h47, h0, if_false, hstep, List.length_cons]
        rwa [show i + ((seg p (i + 1)).length + 1) = i + 1 + (seg p (i + 1)).length by omega]
      · obtain rfl : i = p.length := by omega
        simpa [seg] using Yields.pure none

theorem jbrFillPath_yields (m : Method) (p : Bytes) :
    Yields (jbrFillPath L m p) (some (fillPath L m p)) (InPath L p.length) := by
  unfold jbrFillPath fillPath
  have hroot : Yields (isRootPath (p ++ [0]) p.length) (some (decide (p = [47])))
      (InPath L p.length) := by
    unfold isRootPath
    split
    · obtain ⟨b, rfl⟩ := List.length_eq_one.mp ‹_›
      simpa using Yields.map (g := (· == (47 : UInt8)))
        (load_yields (P := InPath L 1) ([b] ++ [0]) 0 (show 0 ≤ 1 by omega))
    · have : p ≠ [47] := fun h => by simp_all
      simpa [this] using Yields.pure false
  refine Yields.bind hroot ?_
  by_cases hp : p = [47]
  · simpa [hp] using Yields.pure _
  by_cases h2 : p.length < 2
  · simpa [hp, h2] using Yields.pure none
  simp only [hp, h2, decide_False, Bool.false_eq_true, ↓reduceIte]
  refine Yields.bind (strchrLoop_yields p _ 1 (by omega) (by simp; omega)) ?_
  change Yields (match (if (p.drop (1 + (segment p).length)).head? = some 47
    then some (1 + (segment p).length) else none) with | none => _ | some c => _) _ _
  by_cases hf : (p.drop (1 + (segment p).length)).head? = some 47
  · rw [if_pos hf, if_pos hf]
    dsimp only
    set n := (segment p).length
    set d := p.drop (2 + n) with hd
    have hc : 1 + n < p.length := by
      by_contra h
      simp [List.drop_eq_nil_of_le (show p.length ≤ 1 + n by omega)] at hf
    have hdl : d.length = p.length - (1 + n) - 1 := by simp [hd]; omega
    have hcoll : (p.drop 1).take (1 + n - 1) = segment p := by
      rw [Nat.add_sub_cancel_left]
      exact take_takeWhile_length _ _
    rw [← hdl]
    simp only [hcoll]
    by_cases h1 : cInt d.length < 1
    · simpa [h1] using Yields.pure _
    by_cases h3 : (L.numBufSize - 1 : Int) < cInt d.length
    · simpa [h1, h3] using Yields.pure _
    simp only [h1, h3, ↓reduceIte]
    have hnl : (cInt d.length).toNat ≤ d.length := cInt_toNat_le _
    refine Yields.bind (memcpy_yields _ _ _ fun i hi => ⟨show _ ≤ _ by omega, Or.inl rfl, ?_⟩)
      (Yields.bind (store_yields _ _ ⟨Or.inl rfl, ?_⟩) ?_)
    · show 0 ≤ (i : Int) ∧ (i : Int) < L.numBufSize
      omega
    · show 0 ≤ cInt d.length ∧ cInt d.length < L.numBufSize
      omega
    have hpre : d <+: (p ++ [0]).drop (1 + n + 1) := by
      rw [List.drop_append_of_le_length (by omega), hd, show 2 + n = 1 + n + 1 by omega]
      exact List.prefix_append _ _
    rw [window_eq_take hpre hnl]
    split <;> exact Yields.pure _
  · rw [if_neg hf, if_neg hf, if_pos (by omega)]
    cases m <;> simpa using Yields.pure _

theorem jbrFillCtx_yields (method : Bytes) (path : Option Bytes) :
    Yields (jbrFillCtx L method path) (some (fillCtx L method path))
      (InPath L (path.getD []).length) := by
  unfold jbrFillCtx fillCtx
  cases methodOf method <;> cases path
  all_goals first | exact Yields.pure _ | exact jbrFillPath_yields _ _

theorem fillFinish_eq_some {ctx ctx' : JbrCtx} (h : fillFinish L ctx = some ctx') :
    ctx' = ctx ∧ (ctx.collection.getD []).length ≤ L.collectionNameMaxLen := by
  unfold fillFinish at h
  split_ifs at h with hc
  exact ⟨(Option.some.inj h).symm, hc⟩

/-- What `fillPath` accepts keeps the method, and its collection fits the path and the
name buffer. -/
theorem fillPath_some {m : Method} {p : Bytes} {ctx : JbrCtx} (h : fillPath L m p = some ctx) :
    ctx.method = m ∧ ∀ coll, ctx.collection = some coll →
      coll.length + 1 ≤ p.length ∧ coll.length ≤ L.collectionNameMaxLen := by
  have hseg : (segment p).length ≤ p.length - 1 :=
    ((List.takeWhile_prefix _).length_le).trans (by simp)
  unfold fillPath at h
  dsimp only at h
  repeat' split at h
  all_goals first
    | cases h <;> exact ⟨rfl, fun _ hc => by cases hc⟩
    | obtain ⟨rfl, hl⟩ := fillFinish_eq_some h
      refine ⟨rfl, fun coll hc => ?_⟩
      cases hc
      simp only [Option.getD_some, List.length_drop] at hl ⊢
      omega

theorem fillPath_collection {m : Method} {p : Bytes} {ctx : JbrCtx} {coll : Bytes}
    (h : fillPath L m p = some ctx) (hc : ctx.collection = some coll) :
    coll.length + 1 ≤ p.length ∧ coll.length ≤ L.collectionNameMaxLen :=
  (fillPath_some h).2 coll hc

theorem fillCtx_collection {method : Bytes} {path : Option Bytes} {ctx : JbrCtx} {coll : Bytes}
    (h : fillCtx L method path = some ctx) (hc : ctx.collection = some coll) :
    coll.length + 1 ≤ (path.getD []).length ∧ coll.length ≤ L.collectionNameMaxLen := by
  unfold fillCtx at h
  split at h
  · cases h
  · cases h
    cases hc
  · exact fillPath_collection h hc

theorem jbrCopyCname_yields {method : Bytes} {path : Option Bytes} {ctx : JbrCtx}
    (h : fillCtx L method path = some ctx) :
    Yields (jbrCopyCname ctx) (some ()) (InPath L (path.getD []).length) := by
  unfold jbrCopyCname
  cases hc : ctx.collection with
  | none => exact Yields.pure ()
  | some coll =>
      obtain ⟨h₁, h₂⟩ := fillCtx_collection h hc
      refine Yields.bind (memcpy_yields _ _ _ fun i hi => ⟨show 1 + i ≤ _ by omega, Or.inr rfl, ?_⟩)
        (store_yields _ _ ⟨Or.inr rfl, ?_⟩)
      · show 0 ≤ (i : Int) ∧ (i : Int) < L.collectionNameMaxLen + 1
        omega
      · show 0 ≤ (coll.length : Int) ∧ (coll.length : Int) < L.collectionNameMaxLen + 1
        omega

end Path

end Jbr.Http
