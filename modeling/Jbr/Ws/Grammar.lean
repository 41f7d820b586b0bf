import Jbr.Ws.Frame

/-!
# The WebSocket frames, as a grammar

A text frame is read as whitespace-separated tokens `key cmd coll rest`.
`wsGrammar` says what `_jbr_ws_on_message` does with a frame in those terms:
the command is the keyword that `strncmp (kw, cmd, cmd.length)` accepts, which is
any prefix of a keyword or a keyword and a NUL (`namesKeyword`), and only when
more of the frame follows it; the id is the run of at most `JBNUMBUF_SIZE - 1`
digits that starts the rest, with its value wrapped to `int64_t`.  The handlers are
given C strings: each ends at the first NUL of its token.  The parser computes
`wsGrammar` on the first `(int) msg.len` bytes of the frame.
-/

namespace Jbr.Ws

open Jbr.Foundation

/-- `strncmp (kw, cmd, cmd.length) == 0` for a keyword `kw` without NUL. -/
def namesKeyword (kw cmd : Bytes) : Bool :=
  cmd.isPrefixOf kw || (kw ++ [0]).isPrefixOf cmd

def commandOf (cmd : Bytes) : Option JbwsOp :=
  (jbwsKeywords.find? fun kw => namesKeyword kw.1 cmd).map (·.2)

/-- A frame `key cmd coll rest`, read token by token. -/
def wsGrammar (L : Limits) (m : Bytes) : Option WsAction :=
  let t₀ := m.dropWhile isspace
  if t₀ = [] then none else
  let key := t₀.takeWhile (! isspace ·)
  let r₁ := t₀.dropWhile (! isspace ·)
  if r₁ = [] ∨ jbrMaxKeyLen < key.length then none else
  let t₁ := r₁.dropWhile isspace
  if t₁ = [] then none else
  let cmd := t₁.takeWhile (! isspace ·)
  let r₂ := t₁.dropWhile (! isspace ·)
  (if r₂ = [] then none else commandOf cmd).elim (some (.query (cstr key) (cstr t₁))) fun op =>
    let t := r₂.dropWhile isspace
    if t = [] then none else
    let coll := t.takeWhile (! isspace ·)
    let r₃ := t.dropWhile (! isspace ·)
    if coll = [] ∨ r₃ = [] ∨ L.collectionNameMaxLen < coll.length then none else
    let rest := r₃.dropWhile isspace
    if rest = [] then none else
    if op = .add then some (.add (cstr key) (cstr coll) rest) else
    let ds := (rest.take (L.numBufSize - 1)).takeWhile isdigit
    if wrap64 (digitValue ds) < 1 then none
    else idAction (cstr key) (cstr coll) (wrap64 (digitValue ds)) ((rest.drop ds.length).dropWhile isspace) op

/-! ## The parser reads the grammar -/

theorem strncmpEq_names (kw cmd r : Bytes) (hkw : 0 ∉ kw) :
    strncmpEq kw (cmd ++ r) cmd.length = namesKeyword kw cmd := by
  induction cmd generalizing kw with
  | nil => simp [strncmpEq, namesKeyword]
  | cons c cs ih =>
      cases kw with
      | nil => simp [strncmpEq, namesKeyword, List.isPrefixOf]
      | cons k ks =>
          have hk : k ≠ 0 := fun h => hkw (h ▸ List.mem_cons_self k ks)
          have := ih ks fun h => hkw (List.mem_cons_of_mem k h)
          simp only [namesKeyword] at this
          by_cases hc : k = c
          · subst hc
            simp [strncmpEq, namesKeyword, List.isPrefixOf, hk, this]
          · have h1 : (k == c) = false := beq_false_of_ne hc
            have h2 : (c == k) = false := beq_false_of_ne (Ne.symm hc)
            simp [strncmpEq, namesKeyword, List.isPrefixOf, h1, h2]

theorem jbwsOpOf_takeWhile (t : Bytes) (p : UInt8 → Bool) :
    jbwsOpOf t (t.takeWhile p).length jbwsKeywords = commandOf (t.takeWhile p) := by
  have h : ∀ cmd r, jbwsOpOf (cmd ++ r) cmd.length jbwsKeywords = commandOf cmd := fun cmd r => by
    simp [jbwsOpOf, commandOf, jbwsKeywords, List.find?,
      strncmpEq_names _ cmd r (by decide : (0 : UInt8) ∉ lit "set"),
      strncmpEq_names _ cmd r (by decide : (0 : UInt8) ∉ lit "add"),
      strncmpEq_names _ cmd r (by decide : (0 : UInt8) ∉ lit "del"),
      strncmpEq_names _ cmd r (by decide : (0 : UInt8) ∉ lit "patch")]
    split_ifs <;> simp_all
  have := h (t.takeWhile p) (t.dropWhile p)
  rwa [List.takeWhile_append_dropWhile] at this

theorem iwatoi_takeWhile (l : Bytes) :
    iwatoi (l.takeWhile isdigit) = wrap64 (digitValue (l.takeWhile isdigit)) :=
  iwatoi_digits _ fun _ hb => List.mem_takeWhile_imp hb

theorem wsFrame_eq_wsGrammar (L : Limits) (m : Bytes) : wsFrame L m = wsGrammar L m := by
  unfold wsFrame wsGrammar frameDocument frameId
  simp only [jbwsOpOf_takeWhile, iwatoi_takeWhile]

/-- The parser hands on `wsGrammar` of the first `(int) msg.len` bytes of the frame,
which are all of it when it is shorter than `2^31` bytes. -/
theorem wsResult_grammar (L : Limits) (msg : Bytes) :
    wsResult L msg = wsGrammar L (msg.take (cInt msg.length).toNat) ∧
      (msg.length < 2 ^ 31 → msg.take (cInt msg.length).toNat = msg) := by
  refine ⟨by rw [wsResult_eq_wsFrame, window, List.drop_zero, wsFrame_eq_wsGrammar], fun h => ?_⟩
  rw [cInt_of_lt h, Int.toNat_ofNat, List.take_length]

end Jbr.Ws
