import Jbr.Http.Gateway

/-!
# The REST interface

With no token configured, `_jbr_on_http_request` is a router: `_jbr_fill_ctx`
parses the request line, and `process:` sends the request to the query path, to
the handler of the method on a collection and an id, or answers `400`.
`restRoute` says which paths go where, in the terms of the REST interface: a
collection segment, a numeral read as an id, and the limits of the code.  The
gateway runs `dispatch` of `restRoute` for every path shorter than `2^31` bytes.
-/

namespace Jbr.Http

open Jbr.Foundation

/-- Where `_jbr_on_http_request` sends a request the token gate let in. -/
inductive Route where
  /-- `_jbr_on_query` -/
  | query
  /-- the handler of the method, on a collection and an id -/
  | handler (m : Method) (coll : Bytes) (id : Int)
  /-- `http_send_error (req, 400)` -/
  | badRequest
  deriving DecidableEq, Repr

/-- The choice `process:` makes for what `_jbr_fill_ctx` returned. -/
def routeOf : Option JbrCtx → Route
  | none => .badRequest
  | some ctx =>
      match ctx.collection with
      | some coll => .handler ctx.method (cstr coll) ctx.id
      | none => if ctx.method = .post then .query else .badRequest

section Dispatch

variable (B : Backend) (K : Codes)

/-- What `process:` runs for a route. -/
def dispatch (req : HttpRequest) : Route → Serve Unit
  | .query => jbrOnQuery B K req ⟨.post, none, 0, false⟩
  | .handler m coll id => jbrHandler B K req ⟨m, some coll, id, false⟩
  | .badRequest => httpSendError 400

end Dispatch

/-! ## The grammar -/

/-- The id of the REST interface: blanks, an optional `+`, digits, then the end or a NUL. -/
def idNumeral (d : Bytes) : Option Int :=
  let t := d.dropWhile isspace
  let u := if t.head? = some 43 then t.tail else t
  let ds := u.takeWhile isdigit
  if 0 < digitValue ds ∧ (u.drop ds.length).headD 0 = 0 then
    some (min (digitValue ds : Int) llongMax)
  else none

/-- The REST interface on the path `/r`. -/
def restRoute (L : Limits) (m : Method) (r : Bytes) : Route :=
  if r = [] then (if m = .post then .query else .badRequest) else
  let c := r.takeWhile segByte
  let rest := r.dropWhile segByte
  if rest.head? = some 47 then
    let d := rest.tail
    if L.collectionNameMaxLen < c.length then .badRequest
    else if d = [] then .handler m c 0
    else if L.numBufSize ≤ d.length ∨ m = .post then .badRequest
    else match idNumeral d with
      | some id => .handler m c id
      | none => .badRequest
  else if m = .post ∧ r.length ≤ L.collectionNameMaxLen then .handler .post c 0
  else .badRequest

/-! ## `strtoll` with the checks of `_jbr_fill_ctx` reads `idNumeral` -/

private theorem strtoll_accepts_unsigned (d u : Bytes) (base : Nat)
    (h : ∀ j, d.getD (base + j) 0 = u.getD j 0) :
    (if d.getD (if u.takeWhile isdigit = [] then ((0 : Int), 0) else
          (max llongMin (min (digitValue (u.takeWhile isdigit) : Int) llongMax),
            base + (u.takeWhile isdigit).length)).2 0 ≠ 0 ∨
        (if u.takeWhile isdigit = [] then ((0 : Int), 0) else
          (max llongMin (min (digitValue (u.takeWhile isdigit) : Int) llongMax),
            base + (u.takeWhile isdigit).length)).1 < 1 then none
      else some (if u.takeWhile isdigit = [] then ((0 : Int), 0) else
          (max llongMin (min (digitValue (u.takeWhile isdigit) : Int) llongMax),
            base + (u.takeWhile isdigit).length)).1) =
      if 0 < digitValue (u.takeWhile isdigit) ∧ (u.drop (u.takeWhile isdigit).length).headD 0 = 0
      then some (min (digitValue (u.takeWhile isdigit) : Int) llongMax) else none := by
  generalize u.takeWhile isdigit = ds
  by_cases h0 : ds = []
  · subst h0; simp [digitValue]
  · have hmax : max llongMin (min (digitValue ds : Int) llongMax) =
        min (digitValue ds : Int) llongMax :=
      max_eq_right (by unfold llongMin llongMax; omega)
    have hlt : min (digitValue ds : Int) llongMax < 1 ↔ ¬ 0 < digitValue ds := by
      unfold llongMax; omega
    simp only [h0, if_false, h, headD_drop, hmax, hlt]
    by_cases ha : u.getD ds.length 0 = 0 <;> by_cases hb : 0 < digitValue ds <;> simp [ha, hb]

theorem strtoll_accepts (d : Bytes) :
    (if d.getD (strtoll d).2 0 ≠ 0 ∨ (strtoll d).1 < 1 then none else some (strtoll d).1) =
      idNumeral d := by
  have hsp := drop_takeWhile_length isspace d
  have hget : ∀ k, d.getD ((d.takeWhile isspace).length + k) 0 =
      (d.dropWhile isspace).getD k 0 := fun k => by rw [← getD_drop, hsp]
  unfold strtoll idNumeral
  simp only [hsp]
  generalize d.takeWhile isspace = sp at hget
  generalize d.dropWhile isspace = t at hget
  rcases t with _ | ⟨b, u⟩
  · simp [digitValue]
  by_cases h45 : b = 45
  · subst h45
    simp only [strtollSign, List.head?_cons, if_true, List.drop_succ_cons, List.drop_zero]
    -- a negative value is refused, and `idNumeral` finds no digit before the `-`
    have hneg : ∀ ds : Bytes, ((if ds = [] then ((0 : Int), 0) else
        (max llongMin (min (-(digitValue ds : Int)) llongMax), sp.length + 1 + ds.length)).1 < 1) := by
      intro ds
      split <;> simp only [llongMin, llongMax] <;> omega
    rw [if_pos (Or.inr (hneg _))]
    simp [isdigit, digitValue]
  by_cases h43 : b = 43
  · subst h43
    simp only [strtollSign, List.head?_cons, Option.some.injEq, if_true, List.drop_succ_cons,
      List.drop_zero, List.tail_cons, Bool.false_eq_true, if_false, show (43 : UInt8) ≠ 45 by decide]
    exact strtoll_accepts_unsigned d u (sp.length + 1) fun j => by
      rw [Nat.add_assoc, hget, Nat.add_comm]; rfl
  simp only [strtollSign, h45, h43, List.drop_zero, List.head?_cons, Option.some.injEq, if_false,
    Bool.false_eq_true, Nat.add_zero]
  exact strtoll_accepts_unsigned d (b :: u) sp.length hget

/-! ## `_jbr_fill_ctx` reads `restRoute` -/

theorem cstr_takeWhile_segByte (r : Bytes) : cstr (r.takeWhile segByte) = r.takeWhile segByte := by
  induction r with
  | nil => rfl
  | cons b r ih =>
      by_cases hb : segByte b
      · have : (b != 0) = true := by simp_all [segByte]
        simp [List.takeWhile_cons, hb, cstr, this] at ih ⊢
        exact ih
      · simp [List.takeWhile_cons, hb, cstr]

theorem cstr_of_dropWhile_segByte (r : Bytes) (h : (r.dropWhile segByte).head? ≠ some 47) :
    cstr r = r.takeWhile segByte := by
  induction r with
  | nil => rfl
  | cons b r ih =>
      by_cases hb : segByte b
      · have h0 : (b != 0) = true := by simp_all [segByte]
        simp only [List.dropWhile_cons, hb, if_true] at h
        simp only [cstr, List.takeWhile_cons, hb, h0, if_true] at ih ⊢
        rw [ih h]
      · have h0 : b = 0 := by
          simp only [List.dropWhile_cons, hb, if_false, List.head?_cons] at h
          simp only [segByte, Bool.and_eq_true, bne_iff_ne, ne_eq, not_and, not_not] at hb
          by_cases h47 : b = 47
          · exact absurd (congrArg some h47) h
          · exact hb h47
        subst h0
        rfl

theorem routeOf_fillFinish (L : Limits) (m : Method) (coll : Bytes) (id : Int) :
    routeOf (fillFinish L ⟨m, some coll, id, false⟩) =
      if coll.length ≤ L.collectionNameMaxLen then .handler m (cstr coll) id else .badRequest := by
  by_cases h : coll.length ≤ L.collectionNameMaxLen <;> simp [fillFinish, routeOf, h]

/-- `_jbr_fill_ctx` routes the path `/r` as `restRoute` says, for a path shorter
than `2^31` bytes, whose id segment's length `int nlen` holds. -/
theorem fillPath_route (L : Limits) (m : Method) (r : Bytes) (hr : r.length < 2 ^ 31 - 1) :
    routeOf (fillPath L m (47 :: r)) = restRoute L m r := by
  unfold fillPath restRoute
  by_cases h0 : r = []
  · subst h0
    by_cases hm : m = .post <;> simp [routeOf, hm]
  have hc := drop_takeWhile_length segByte r
  have hlen := length_takeWhile_add segByte r
  have hseg : segment (47 :: r) = r.takeWhile segByte := rfl
  set c := r.takeWhile segByte
  set rest := r.dropWhile segByte
  have hcstr : cstr c = c := cstr_takeWhile_segByte r
  have hne : (47 :: r) ≠ [47] := by simpa using h0
  have hl2 : ¬ (47 :: r).length < 2 := by
    simpa [Nat.succ_lt_succ_iff, Nat.lt_one_iff] using h0
  have hdrop1 : (47 :: r).drop (1 + c.length) = rest := by
    rw [Nat.add_comm]; exact hc
  have hdrop2 : (47 :: r).drop (2 + c.length) = rest.tail := by
    rw [show 2 + c.length = c.length + 1 + 1 by omega, ← hc, List.tail_drop]; rfl
  simp only [hne, hl2, hseg, hdrop1, hdrop2, if_false, h0]
  by_cases hs : rest.head? = some 47
  · have hd : rest.tail.length < 2 ^ 31 := by simp only [List.length_tail]; omega
    simp only [hs, if_true, cInt_of_lt hd, Int.toNat_ofNat, List.take_length]
    by_cases hd0 : rest.tail = []
    · simp only [hd0, List.length_nil, Nat.cast_zero, Int.zero_lt_one, if_true,
        routeOf_fillFinish, hcstr]
      split_ifs <;> first | rfl | omega
    have hpos : 0 < rest.tail.length := List.length_pos.mpr hd0
    simp only [hd0, if_false, show ¬ ((rest.tail.length : Int) < 1) by omega,
      show ((L.numBufSize : Int) - 1 < rest.tail.length ↔ L.numBufSize ≤ rest.tail.length) by omega,
      ← strtoll_accepts rest.tail]
    by_cases hbig : L.numBufSize ≤ rest.tail.length
    · simp only [hbig, if_true, true_or, ite_self]; rfl
    by_cases hpost : m = .post
    · simp only [hbig, hpost, if_false, or_true, if_true, ite_self]; rfl
    simp only [hbig, hpost, or_false, if_false]
    split_ifs <;> first
      | rfl
      | rw [routeOf_fillFinish, hcstr, if_pos (by omega)]
      | rw [routeOf_fillFinish, if_neg (by omega)]
  have hcr : cstr r = c := cstr_of_dropWhile_segByte r hs
  by_cases hpost : m = .post
  · subst hpost
    simp only [hs, if_false, if_true, List.drop_succ_cons, List.drop_zero, routeOf_fillFinish, hcr,
      true_and]
  · simp [hs, hpost, routeOf]

/-! ## The gateway is the router -/

theorem fillCtx_some {L : Limits} {meth : Bytes} {path : Option Bytes} {ctx : JbrCtx}
    (h : fillCtx L meth path = some ctx) : ctx.readAnon = false ∧ (ctx.collection = none → ctx.id = 0) := by
  unfold fillCtx at h
  split at h
  · cases h
  · cases h; exact ⟨rfl, fun _ => rfl⟩
  · unfold fillPath at h
    dsimp only at h
    repeat' split at h
    all_goals first
      | obtain ⟨rfl, -⟩ := fillFinish_eq_some h
        exact ⟨rfl, fun h => absurd h (Option.some_ne_none _)⟩
      | exact absurd h (Option.noConfusion ·)
      | cases h; exact ⟨rfl, fun _ => rfl⟩

section Router

variable (L : Limits) (B : Backend) (K : Codes)

/-- With no token configured, `_jbr_on_http_request` runs the route of the request
line. -/
theorem jbrOnHttpRequest_dispatch (cfg : HttpConfig) (hcfg : cfg.accessToken = none)
    (req : HttpRequest) :
    jbrOnHttpRequest L B K cfg req = dispatch B K req (routeOf (fillCtx L req.method req.path)) := by
  unfold jbrOnHttpRequest
  rw [jbrFillCtxResult_eq]
  cases hf : fillCtx L req.method req.path with
  | none => rfl
  | some ctx =>
      obtain ⟨hanon, hid⟩ := fillCtx_some hf
      obtain ⟨m, coll, id, ra⟩ := ctx
      simp only at hanon hid
      subst hanon
      simp only [httpTokenGate, hcfg, jbrProcess, routeOf]
      cases coll with
      | some coll => rfl
      | none =>
          obtain rfl := hid rfl
          by_cases hm : m = .post
          · subst hm; rfl
          · simp [hm, dispatch]

/-- With no token configured, a request whose method `_jbr_fill_ctx` knows and whose
path `/r` is shorter than `2^31` bytes goes where `restRoute` says: `400` without a
database call, the query path, or the method's handler on the collection and id. -/
theorem jbrOnHttpRequest_restRoute (cfg : HttpConfig) (hcfg : cfg.accessToken = none)
    (req : HttpRequest) (m : Method) (r : Bytes) (hm : methodOf req.method = some m)
    (hp : req.path = some (47 :: r)) (hr : r.length < 2 ^ 31 - 1) :
    jbrOnHttpRequest L B K cfg req = dispatch B K req (restRoute L m r) := by
  rw [jbrOnHttpRequest_dispatch L B K cfg hcfg req, ← fillPath_route L m r hr]
  simp [fillCtx, hm, hp]

end Router

end Jbr.Http
