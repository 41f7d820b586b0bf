import Jbr.Ws.Grammar

/-!
# What a client sends

The comment above `_jbr_ws_on_message` gives the frames a client writes:

    key set c1 1 {"foo":"bar"}
    key add c1 {"foo":"bar"}
    key del c1 22
    key patch c1 33 {}
    key (@c1/foo/bar) | apply

`wsRender` writes an action that way, its tokens and its body joined by single
blanks.  Every action a client can send within the parser's limits (`sendable`)
is read back by `_jbr_ws_on_message` as that action, as long as `JBNUMBUF_SIZE`
holds the nineteen digits of `INT64_MAX`.
-/

namespace Jbr.Ws

open Jbr.Foundation

def joinBlank : List Bytes → Bytes
  | [] => []
  | [t] => t
  | t :: ts => t ++ 32 :: joinBlank ts

/-- The frame a client writes for an action. -/
def wsRender : WsAction → Bytes
  | .close => []
  | .set key coll id json => joinBlank [key, lit "set", coll, decimal id, json]
  | .add key coll json => joinBlank [key, lit "add", coll, json]
  | .del key coll id => joinBlank [key, lit "del", coll, decimal id]
  | .patch key coll id json => joinBlank [key, lit "patch", coll, decimal id, json]
  | .query key q => joinBlank [key, q]

def isToken (t : Bytes) : Bool := !t.isEmpty && t.all (! isspace ·) && !t.contains 0

def startsSolid : Bytes → Bool
  | [] => true
  | b :: _ => !isspace b

/-- The actions a client can send within the limits of the parser. -/
def WsAction.sendable (L : Limits) : WsAction → Bool
  | .close => false
  | .set key coll id json | .patch key coll id json =>
      isToken key && key.length ≤ jbrMaxKeyLen && isToken coll &&
        coll.length ≤ L.collectionNameMaxLen && 1 ≤ id && id ≤ llongMax && startsSolid json &&
        !json.contains 0
  | .add key coll json =>
      isToken key && key.length ≤ jbrMaxKeyLen && isToken coll &&
        coll.length ≤ L.collectionNameMaxLen && !json.isEmpty && startsSolid json
  | .del key coll id =>
      isToken key && key.length ≤ jbrMaxKeyLen && isToken coll &&
        coll.length ≤ L.collectionNameMaxLen && 1 ≤ id && id ≤ llongMax
  | .query key q =>
      isToken key && key.length ≤ jbrMaxKeyLen && !q.isEmpty && startsSolid q && !q.contains 0 &&
        ((q.dropWhile (! isspace ·)).isEmpty || (commandOf (q.takeWhile (! isspace ·))).isNone)

/-! ## Reading a token and a blank -/

section Tokens

variable {t r : Bytes}

theorem isToken_iff : isToken t = true ↔ t ≠ [] ∧ (∀ b ∈ t, isspace b = false) ∧ 0 ∉ t := by
  simp [isToken, List.isEmpty_iff, and_assoc]

theorem takeWhile_token (ht : ∀ b ∈ t, isspace b = false) :
    (t ++ 32 :: r).takeWhile (! isspace ·) = t := by
  rw [List.takeWhile_append_of_pos (by simpa using ht)]
  simp [isspace]

theorem dropWhile_token (ht : ∀ b ∈ t, isspace b = false) :
    (t ++ 32 :: r).dropWhile (! isspace ·) = 32 :: r := by
  rw [List.dropWhile_append_of_pos (by simpa using ht)]
  simp [isspace]

theorem dropWhile_startsSolid (h : startsSolid t = true) : t.dropWhile isspace = t := by
  cases t with
  | nil => rfl
  | cons b t => simpa [startsSolid] using h

theorem dropWhile_blank (h : startsSolid t = true) : (32 :: t).dropWhile isspace = t := by
  simp [isspace, dropWhile_startsSolid h]

theorem startsSolid_of_token (ht : ∀ b ∈ t, isspace b = false) : startsSolid (t ++ r) = true ∨ t = [] := by
  cases t with
  | nil => exact .inr rfl
  | cons b t => simp [startsSolid, ht b (List.mem_cons_self b t)]

theorem dropWhile_key (ht : isToken t = true) : (t ++ 32 :: r).dropWhile isspace = t ++ 32 :: r := by
  obtain ⟨ht0, hts, -⟩ := isToken_iff.mp ht
  rcases startsSolid_of_token (r := 32 :: r) hts with h | h
  · exact dropWhile_startsSolid h
  · exact absurd h ht0

end Tokens

/-! ## The parser reads the frames back -/

section Key

variable (L : Limits) {key : Bytes} (hk : isToken key = true) (hkl : key.length ≤ jbrMaxKeyLen)
include hk hkl

theorem wsFrame_query {t : Bytes} (ht : t ≠ []) (hs : startsSolid t = true)
    (hq : t.dropWhile (! isspace ·) = [] ∨ commandOf (t.takeWhile (! isspace ·)) = none) :
    wsFrame L (key ++ 32 :: t) = some (.query key (cstr t)) := by
  obtain ⟨-, hks, hk0⟩ := isToken_iff.mp hk
  unfold wsFrame
  simp only [dropWhile_key hk, takeWhile_token hks, dropWhile_token hks, dropWhile_blank hs,
    jbwsOpOf_takeWhile, List.append_eq_nil, reduceCtorEq, and_false, if_false, not_lt.mpr hkl,
    or_false, ht, cstr_of_not_mem hk0]
  rcases hq with hq | hq <;> simp [hq]

theorem wsFrame_command {cmd rest : Bytes} {op : JbwsOp} (hc : isToken cmd = true)
    (hop : commandOf cmd = some op) :
    wsFrame L (key ++ 32 :: (cmd ++ 32 :: rest)) = frameDocument L key op (32 :: rest) := by
  obtain ⟨-, hks, hk0⟩ := isToken_iff.mp hk
  obtain ⟨hc0, hcs, -⟩ := isToken_iff.mp hc
  have hs : startsSolid (cmd ++ 32 :: rest) = true := (startsSolid_of_token hcs).resolve_right hc0
  unfold wsFrame
  simp only [jbwsOpOf_takeWhile]
  simp only [dropWhile_key hk, takeWhile_token hks, dropWhile_token hks, dropWhile_blank hs,
    List.append_eq_nil, reduceCtorEq, and_false, if_false, not_lt.mpr hkl, or_false,
    takeWhile_token hcs, dropWhile_token hcs, hop, Option.elim_some, cstr_of_not_mem hk0]

end Key

theorem frameDocument_coll (L : Limits) (key : Bytes) (op : JbwsOp) {coll rest : Bytes}
    (hc : isToken coll = true) (hcl : coll.length ≤ L.collectionNameMaxLen) (hr : rest ≠ [])
    (hs : startsSolid rest = true) :
    frameDocument L key op (32 :: (coll ++ 32 :: rest)) =
      if op = .add then some (.add key coll rest) else frameId L key coll op rest := by
  obtain ⟨hc0, hcs, hcz⟩ := isToken_iff.mp hc
  have h0 : (32 :: (coll ++ 32 :: rest)).dropWhile isspace = coll ++ 32 :: rest := by
    rw [dropWhile_blank]
    exact (startsSolid_of_token (r := 32 :: rest) hcs).resolve_right hc0
  unfold frameDocument
  simp only [h0, takeWhile_token hcs, dropWhile_token hcs, dropWhile_blank hs, List.append_eq_nil,
    reduceCtorEq, and_false, if_false, hc0, not_lt.mpr hcl, or_false, hr, false_or,
    cstr_of_not_mem hcz]

theorem idDigits (L : Limits) (hL : 20 ≤ L.numBufSize) {id : Int} (h1 : 1 ≤ id) (h2 : id ≤ llongMax)
    {r : Bytes} (hr : ∀ b ∈ r.head?, isdigit b = false) :
    ((decimal id ++ r).take (L.numBufSize - 1)).takeWhile isdigit = decimal id ∧
      iwatoi (decimal id) = id := by
  obtain ⟨-, hd, hv⟩ := natDigits_spec id.toNat
  have hlen : (natDigits id.toNat).length ≤ 19 :=
    natDigits_length (by unfold llongMax at h2; omega) (by decide)
  rw [decimal_of_pos h1]
  refine ⟨?_, ?_⟩
  · rw [List.take_append_eq_append_take,
      List.take_of_length_le (show (natDigits id.toNat).length ≤ L.numBufSize - 1 by omega),
      List.takeWhile_append_of_pos hd]
    cases r with
    | nil => simp
    | cons b r =>
        have hb := hr b rfl
        cases L.numBufSize - 1 - (natDigits id.toNat).length <;> simp [hb]
  · rw [iwatoi_digits _ hd, hv]
    unfold wrap64
    unfold llongMax at h2
    split <;> omega

theorem startsSolid_decimal {id : Int} (h1 : 1 ≤ id) (r : Bytes) :
    decimal id ++ r ≠ [] ∧ startsSolid (decimal id ++ r) = true := by
  obtain ⟨hne, hd, -⟩ := natDigits_spec id.toNat
  rw [decimal_of_pos h1]
  obtain ⟨b, l, hbl⟩ := List.exists_cons_of_ne_nil hne
  have hb := isspace_of_isdigit (hd b (hbl ▸ List.mem_cons_self b l))
  rw [hbl]
  exact ⟨List.cons_ne_nil _ _, by simp [startsSolid, hb]⟩

theorem wsFrame_idBody (L : Limits) (hL : 20 ≤ L.numBufSize) {key cmd coll json : Bytes}
    {id : Int} {op : JbwsOp} (hc : isToken cmd = true) (hop : commandOf cmd = some op)
    (hadd : op ≠ .add) (ha : (WsAction.set key coll id json).sendable L = true) :
    wsFrame L (joinBlank [key, cmd, coll, decimal id, json]) = idAction key coll id json op ∧
      cstr json = json := by
  simp only [WsAction.sendable, Bool.and_eq_true, decide_eq_true_eq, Bool.not_eq_true',
    List.elem_eq_mem, decide_eq_false_iff_not] at ha
  obtain ⟨⟨⟨⟨⟨⟨⟨hk, hkl⟩, hco⟩, hcl⟩, h1⟩, h2⟩, hs⟩, hj⟩ := ha
  obtain ⟨hne, hsd⟩ := startsSolid_decimal h1 (32 :: json)
  obtain ⟨hds, hid⟩ := idDigits L hL h1 h2 (r := 32 :: json) (by simp [isdigit])
  simp only [joinBlank]
  rw [wsFrame_command L hk hkl hc hop, frameDocument_coll L key op hco hcl hne hsd, if_neg hadd]
  simp [frameId, hds, hid, dropWhile_blank hs, h1, cstr_of_not_mem hj]

theorem wsFrame_render (L : Limits) (hL : 20 ≤ L.numBufSize) (a : WsAction)
    (ha : a.sendable L = true) : wsFrame L (wsRender a) = some a := by
  cases a with
  | close => cases ha
  | set key coll id json =>
      obtain ⟨h, hj⟩ := wsFrame_idBody L hL (by decide)
        (by decide : commandOf (lit "set") = some .set) nofun ha
      rw [wsRender, h, idAction, hj]
  | add key coll json =>
      simp only [WsAction.sendable, Bool.and_eq_true, decide_eq_true_eq, Bool.not_eq_true',
        List.isEmpty_eq_false] at ha
      obtain ⟨⟨⟨⟨⟨hk, hkl⟩, hc⟩, hcl⟩, hne⟩, hs⟩ := ha
      simp only [wsRender, joinBlank]
      rw [wsFrame_command L hk hkl (by decide) (by decide : commandOf (lit "add") = some .add),
        frameDocument_coll L key .add hc hcl hne hs, if_pos rfl]
  | del key coll id =>
      simp only [WsAction.sendable, Bool.and_eq_true, decide_eq_true_eq] at ha
      obtain ⟨⟨⟨⟨⟨hk, hkl⟩, hc⟩, hcl⟩, h1⟩, h2⟩ := ha
      obtain ⟨hne, hsd⟩ := startsSolid_decimal h1 []
      rw [List.append_nil] at hne hsd
      simp only [wsRender, joinBlank]
      rw [wsFrame_command L hk hkl (by decide) (by decide : commandOf (lit "del") = some .del),
        frameDocument_coll L key .del hc hcl hne hsd]
      obtain ⟨hds, hid⟩ := idDigits L hL h1 h2 (r := []) (by simp)
      rw [List.append_nil] at hds
      simp [frameId, hds, hid, h1, idAction]
  | patch key coll id json =>
      obtain ⟨h, hj⟩ := wsFrame_idBody L hL (by decide)
        (by decide : commandOf (lit "patch") = some .patch) nofun ha
      rw [wsRender, h, idAction, hj]
  | query key q =>
      simp only [WsAction.sendable, Bool.and_eq_true, Bool.or_eq_true, Bool.not_eq_true',
        List.isEmpty_eq_false, List.isEmpty_iff, Option.isNone_iff_eq_none, List.elem_eq_mem,
        decide_eq_false_iff_not] at ha
      obtain ⟨⟨⟨⟨⟨hk, hkl⟩, hne⟩, hs⟩, hq0⟩, hq⟩ := ha
      show wsFrame L (key ++ 32 :: q) = _
      rw [wsFrame_query L hk (by simpa using hkl) hne hs hq, cstr_of_not_mem hq0]

/-- Every action a client can send, in a frame shorter than `2^31` bytes, reaches
its handler as that action; `add` gets its body without a terminator. -/
theorem wsResult_render (L : Limits) (hL : 20 ≤ L.numBufSize) (a : WsAction)
    (ha : a.sendable L = true) (hlen : (wsRender a).length < 2 ^ 31) :
    wsResult L (wsRender a) = some a := by
  rw [wsResult_eq_wsFrame, cInt_of_lt hlen, Int.toNat_ofNat, window, List.drop_zero, List.take_length]
  exact wsFrame_render L hL a ha

theorem wsResult_render_set :
    20 ≤ Limits.sample.numBufSize ∧
      (WsAction.set (lit "key") (lit "c1") 1 (lit "{}")).sendable Limits.sample = true ∧
      (wsRender (.set (lit "key") (lit "c1") 1 (lit "{}"))).length < 2 ^ 31 ∧
      wsResult Limits.sample (wsRender (.set (lit "key") (lit "c1") 1 (lit "{}"))) =
        some (.set (lit "key") (lit "c1") 1 (lit "{}")) :=
  ⟨by decide, by decide, by decide,
    wsResult_render Limits.sample (by decide) _ (by decide) (by decide)⟩

/-- The body `add` is given has no terminator: without a NUL in it, the handler reads
on past the end of the frame. -/
theorem addBody_past_frame {rest : Bytes} (h : (0 : UInt8) ∉ rest) (after : Bytes) :
    addBody rest after = rest ++ cstr after :=
  cstr_append_of_not_mem after h

/-- `strncmp ("set", data, pos)` compares only the `pos` bytes of the command token, so
every non-empty prefix of `set`, such as `s`, names `set`: a frame written with it
reaches `_jbr_ws_set_document` as the `set` command. -/
theorem wsResult_prefix_names_set (L : Limits) (hL : 20 ≤ L.numBufSize) {p key coll json : Bytes}
    {id : Int} (hp : p ≠ []) (hpre : p <+: lit "set")
    (ha : (WsAction.set key coll id json).sendable L = true)
    (hlen : (joinBlank [key, p, coll, decimal id, json]).length < 2 ^ 31) :
    wsResult L (joinBlank [key, p, coll, decimal id, json]) = some (.set key coll id json) := by
  have hbytes : ∀ b ∈ lit "set", isspace b = false ∧ b ≠ 0 := by decide
  have hc : isToken p = true := isToken_iff.mpr
    ⟨hp, fun b hb => (hbytes b (hpre.subset hb)).1, fun h0 => (hbytes 0 (hpre.subset h0)).2 rfl⟩
  have hop : commandOf p = some .set := by
    simp [commandOf, jbwsKeywords, List.find?, namesKeyword, List.isPrefixOf_iff_prefix.mpr hpre]
  obtain ⟨h, hj⟩ := wsFrame_idBody L hL hc hop nofun ha
  rw [wsResult_eq_wsFrame, cInt_of_lt hlen, Int.toNat_ofNat, window, List.drop_zero, List.take_length,
    h, idAction, hj]

theorem wsResult_prefix_names_set_s :
    (WsAction.set (lit "k") (lit "c") 1 (lit "x")).sendable Limits.sample = true ∧
    wsResult Limits.sample (joinBlank [lit "k", lit "s", lit "c", decimal 1, lit "x"]) =
      some (.set (lit "k") (lit "c") 1 (lit "x")) :=
  ⟨by decide, wsResult_prefix_names_set Limits.sample (by decide) (by decide) (by decide)
    (by decide) (by decide)⟩

end Jbr.Ws
