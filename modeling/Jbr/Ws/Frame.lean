import Jbr.Ws.Message

/-!
# The WebSocket parser on its frame

`_jbr_ws_on_message` parses the first `len` bytes of the message, `len` being
`msg.len` converted to `int`; call those bytes the frame `f`.  At each point of the
parser, `data` and `len` stand for a suffix `u` of the frame: `data` is
`f.length - u.length` and `len` is `u.length`.  Each stage is proved once against
that reading, and `jbrWsOnMessage_yields` chains them: the parser ends as `wsFrame`
says, and every access it makes lies in the frame (`InFrame`).
-/

namespace Jbr.Ws

open Jbr.Foundation

/-- Where the parser of a frame that ends at offset `E` may touch memory. -/
def InFrame (L : Limits) (E : Nat) : Access → Prop
  | .read o => o < E
  | .write .input i => i = E
  | .write b i => 0 ≤ i ∧ i < b.size L

/-! ## The loops -/

section Loops

variable {L : Limits} {msg w : Bytes} {data : Nat}

theorem strncmpLoop_yields (kw : Bytes) (h : w <+: msg.drop data) (n i : Nat)
    (hn : i + n ≤ w.length) :
    Yields (strncmpLoop kw msg data n i) (some (strncmpEq (kw.drop i) (w.drop i) n))
      (InFrame L (data + w.length)) := by
  induction n generalizing i with
  | zero => exact Yields.pure _
  | succ n ih =>
      have hi : i < w.length := by omega
      have hb : msg.getD (data + i) 0 = (w.drop i).headD 0 := by
        rw [getD_of_window h hi, headD_drop, List.getD_eq_getElem?_getD,
          List.getElem?_eq_getElem hi, Option.getD_some]
      refine Yields.bind (load_yields msg _ (show data + i < data + w.length by omega)) ?_
      rw [hb]
      simp only [strncmpEq, ← headD_drop kw i, List.tail_drop]
      generalize (kw.drop i).headD 0 = a
      generalize (w.drop i).headD 0 = b
      by_cases he : a = b
      · subst he
        by_cases hz : a = 0
        · simpa [hz] using Yields.pure true
        · rw [show (a == 0) = false by simpa using hz, Bool.false_or]
          simpa [hz] using ih (i + 1) (by omega)
      · rw [show (a == b) = false by simpa using he, Bool.false_and]
        simpa [he] using Yields.pure false

theorem jbwsOpAt_yields (h : w <+: msg.drop data) {pos : Nat} (hpos : pos ≤ w.length)
    (kws : List (Bytes × JbwsOp)) :
    Yields (jbwsOpAt msg data pos kws) (some (jbwsOpOf w pos kws))
      (InFrame L (data + w.length)) := by
  induction kws with
  | nil => exact Yields.pure none
  | cons k kws ih =>
      obtain ⟨kw, op⟩ := k
      have hk := strncmpLoop_yields (L := L) kw h pos 0 (by omega)
      simp only [List.drop_zero] at hk
      refine Yields.bind hk ?_
      by_cases hm : strncmpEq kw w pos = true
      · simpa [jbwsOpOf, hm] using Yields.pure (some op)
      · simpa [jbwsOpOf, hm] using ih

theorem digitLoop_yields (h : w <+: msg.drop data) (fuel pos : Nat)
    (hf : pos + fuel = w.length) :
    Yields (digitLoop msg data (L.numBufSize - 1) fuel pos)
      (some (pos + (((w.drop pos).take (L.numBufSize - 1 - pos)).takeWhile isdigit).length))
      (InFrame L (data + w.length)) := by
  induction fuel generalizing pos with
  | zero =>
      simpa [digitLoop, List.drop_eq_nil_of_le (show w.length ≤ pos by omega)] using
        Yields.pure pos
  | succ fuel ih =>
      have hi : pos < w.length := by omega
      have hread : InFrame L (data + w.length) (.read (data + pos)) := show _ < _ by omega
      by_cases hc : pos < L.numBufSize - 1
      · simp only [digitLoop, hc, if_true]
        refine Yields.bind (load_yields msg _ hread) ?_
        rw [getD_of_window h hi, List.drop_eq_getElem_cons hi, List.take_cons (by omega)]
        by_cases hd : isdigit w[pos] = true
        · simp only [hd, if_true, List.takeWhile_cons_of_pos hd, List.length_cons]
          rw [Nat.sub_sub (L.numBufSize - 1) pos 1]
          refine Yields.bind (load_yields msg _ hread) ?_
          refine Yields.bind (store_yields .nbuf pos ?_) ?_
          · show 0 ≤ (pos : Int) ∧ (pos : Int) < L.numBufSize
            have := L.numBufSize_pos
            omega
          convert ih (pos + 1) (by omega) using 2
          omega
        · simpa [hd, List.takeWhile_cons_of_neg hd] using Yields.pure pos
      · simpa [digitLoop, hc, show L.numBufSize - 1 - pos = 0 by omega] using Yields.pure pos

end Loops

/-! ## The stages, on a suffix of the frame -/

section Stages

variable {L : Limits} {msg f u : Bytes}

theorem skipSpaces_yields (hf : f <+: msg) (hu : u <:+ f) {pos : Nat} (hpos : pos ≤ u.length) :
    Yields (skipSpaces msg (f.length - u.length) u.length pos)
      (some (f.length - ((u.drop pos).dropWhile isspace).length,
        (((u.drop pos).dropWhile isspace).length : Int))) (InFrame L f.length) := by
  have hul := hu.length_le
  refine Yields.bind (scan_yields isspace (prefix_of_frame_suffix hf hu) rfl hpos
    fun o ho => show o < _ by omega) ?_
  have e := length_takeWhile_add isspace (u.drop pos)
  simp only [List.length_drop] at e
  convert Yields.pure _ using 3 <;> omega

theorem skipToToken_yields (hf : f <+: msg) (hu : u <:+ f) {pos : Nat} (hpos : pos ≤ u.length) :
    Yields (skipToToken msg (f.length - u.length) u.length pos)
      (if (u.drop pos).dropWhile isspace = [] then none
        else some (f.length - ((u.drop pos).dropWhile isspace).length,
          (((u.drop pos).dropWhile isspace).length : Int))) (InFrame L f.length) := by
  exact Yields.bind (skipSpaces_yields hf hu hpos)
    (Yields.guard length_lt_one_iff fun _ => Yields.pure _)

theorem scanToken_yields (hf : f <+: msg) (hu : u <:+ f) :
    Yields (scan (! isspace ·) msg (f.length - u.length) u.length 0)
      (some (u.takeWhile (! isspace ·)).length) (InFrame L f.length) := by
  have hul := hu.length_le
  simpa using scan_yields (P := InFrame L f.length) (! isspace ·)
    (prefix_of_frame_suffix hf hu) rfl (Nat.zero_le _) fun o ho => show o < _ by omega

theorem token_end (hu : u <:+ f) (p : UInt8 → Bool) :
    f.length - u.length + (u.takeWhile p).length = f.length - (u.dropWhile p).length ∧
      (u.length : Int) - (u.takeWhile p).length = (u.dropWhile p).length ∧
      u.dropWhile p <:+ f := by
  have e := length_takeWhile_add p u
  have := hu.length_le
  exact ⟨by omega, by omega, (List.dropWhile_suffix p).trans hu⟩

theorem jbwsCommand_yields (hf : f <+: msg) (hu : u <:+ f) :
    Yields (jbwsCommand msg (f.length - u.length) u.length (u.takeWhile (! isspace ·)).length)
      (some (if u.dropWhile (! isspace ·) = [] then none
        else jbwsOpOf u (u.takeWhile (! isspace ·)).length jbwsKeywords)) (InFrame L f.length) := by
  have e := length_takeWhile_add (! isspace ·) u
  unfold jbwsCommand
  by_cases hr : u.dropWhile (! isspace ·) = []
  · rw [if_neg (by simp [hr] at e; omega), if_pos hr]
    exact Yields.pure none
  · have := List.length_pos.mpr hr
    rw [if_pos (by omega), if_neg hr]
    have h := jbwsOpAt_yields (L := L) (prefix_of_frame_suffix hf hu)
      (show (u.takeWhile (! isspace ·)).length ≤ u.length by omega) jbwsKeywords
    rwa [Nat.sub_add_cancel hu.length_le] at h

theorem jbrWsId_yields (hf : f <+: msg) (hu : u <:+ f) (key coll : Bytes) (op : JbwsOp) :
    Yields (jbrWsId L msg key coll op (f.length - u.length) u.length) (frameId L key coll op u)
      (InFrame L f.length) := by
  have hd := digitLoop_yields (L := L) (prefix_of_frame_suffix hf hu) u.length 0 (by simp)
  simp only [List.drop_zero, Nat.sub_zero, Nat.zero_add, Nat.sub_add_cancel hu.length_le] at hd
  set ds := (u.take (L.numBufSize - 1)).takeWhile isdigit with hds
  have hdsu : ds <+: u := (List.takeWhile_prefix _).trans (List.take_prefix _ _)
  have hdc : ds.length ≤ L.numBufSize - 1 :=
    (List.takeWhile_prefix _).length_le.trans (List.length_take_le _ _)
  have hnb : window msg (f.length - u.length) ds.length = ds := by
    rw [window_of_frame_suffix hf hu hdsu.length_le]
    exact (List.prefix_iff_eq_take.mp hdsu).symm
  set b := (u.drop ds.length).dropWhile isspace with hb
  have hbf : b <:+ f := (suffix_dropWhile_drop _ _ _).trans hu
  have hbl := hbf.length_le
  have hwin : window msg (f.length - b.length) b.length = b := by
    rw [window_of_frame_suffix hf hbf le_rfl, List.take_length]
  have hend : InFrame L f.length (.write .input ((f.length - b.length : Nat) + b.length)) :=
    show _ = _ by omega
  unfold jbrWsId frameId
  simp only [Int.toNat_ofNat]
  refine Yields.bind hd (Yields.bind (store_yields .nbuf ds.length ?_)
    (Yields.bind (skipSpaces_yields hf hu hdsu.length_le) ?_))
  · show 0 ≤ (ds.length : Int) ∧ (ds.length : Int) < L.numBufSize
    have := L.numBufSize_pos
    omega
  simp only [hnb, ← hds, ← hb, Int.toNat_ofNat, hwin]
  refine Yields.guard Iff.rfl fun _ => ?_
  cases op
  · exact Yields.map (g := fun _ => _) (store_yields .input _ hend)
  · exact Yields.throw
  · exact Yields.pure _
  · exact Yields.map (g := fun _ => _) (store_yields .input _ hend)

theorem jbrWsDocument_yields (hf : f <+: msg) (hu : u <:+ f) (key : Bytes) (op : JbwsOp)
    {pos : Nat} (hpos : pos ≤ u.length) :
    Yields (jbrWsDocument L msg key op (f.length - u.length) u.length pos)
      (frameDocument L key op (u.drop pos)) (InFrame L f.length) := by
  unfold jbrWsDocument frameDocument
  refine Yields.bind_ite (skipToToken_yields hf hu hpos) fun ht => ?_
  set t := (u.drop pos).dropWhile isspace
  have htf : t <:+ f := (suffix_dropWhile_drop _ _ _).trans hu
  have htl := htf.length_le
  refine Yields.bind (scanToken_yields hf htf) ?_
  obtain ⟨e₁, e₂, hrf⟩ := token_end htf (! isspace ·)
  have hcr := length_takeWhile_add (! isspace ·) t
  set coll := t.takeWhile (! isspace ·)
  set r := t.dropWhile (! isspace ·)
  dsimp only
  rw [e₁, e₂]
  refine Yields.guard (by rw [Nat.lt_one_iff, List.length_eq_zero, length_lt_one_iff]) fun hc => ?_
  simp only [not_or, Nat.not_lt] at hc
  have hcw : window msg (f.length - t.length) coll.length = coll := by
    rw [window_of_frame_suffix hf htf (by omega), take_takeWhile_length]
  refine Yields.bind (memcpy_yields _ _ _ fun i hi => ⟨show _ < _ by omega, ?_⟩)
    (Yields.bind (store_yields _ _ ?_) ?_)
  · show 0 ≤ (i : Int) ∧ (i : Int) < L.collectionNameMaxLen + 1
    omega
  · show 0 ≤ (coll.length : Int) ∧ (coll.length : Int) < L.collectionNameMaxLen + 1
    omega
  rw [hcw]
  have hs := skipToToken_yields (L := L) hf hrf (Nat.zero_le _)
  simp only [List.drop_zero] at hs
  refine Yields.bind_ite hs fun ht' => ?_
  set t' := r.dropWhile isspace
  have ht'f : t' <:+ f := (List.dropWhile_suffix _).trans hrf
  dsimp only
  split_ifs
  · rw [Int.toNat_ofNat, window_of_frame_suffix hf ht'f le_rfl, List.take_length]
    exact Yields.pure _
  · exact jbrWsId_yields hf ht'f key (cstr coll) op

end Stages

/-- The parser of a text frame ends as `wsFrame` reads its first `(int) msg.len`
bytes, and every access it makes lies within them. -/
theorem jbrWsOnMessage_yields (L : Limits) (msg : Bytes) :
    Yields (jbrWsOnMessage L msg true) (wsFrame L (window msg 0 (cInt msg.length).toNat))
      (InFrame L (cInt msg.length).toNat) := by
  set f := window msg 0 (cInt msg.length).toNat with hfw
  have hf : f <+: msg := by
    simpa [hfw, window] using List.take_prefix _ msg
  have hfl : f.length = (cInt msg.length).toNat := by
    rw [hfw, window, List.drop_zero, List.length_take]
    exact Nat.min_eq_left (cInt_toNat_le _)
  unfold jbrWsOnMessage
  simp only [Bool.not_true, Bool.false_eq_true, ↓reduceIte]
  by_cases hm : msg.length < 1
  · obtain rfl : msg = [] := List.length_eq_zero.mp (by omega)
    rw [if_pos hm]
    simpa [hfw, window, wsFrame] using Yields.throw
  rw [if_neg hm, ← hfl]
  by_cases hn : cInt msg.length < 1
  · have hf0 : f = [] := List.length_eq_zero.mp (by omega)
    have hs : Yields (skipToToken msg 0 (cInt msg.length) 0) none (InFrame L f.length) := by
      simp [skipToToken, skipSpaces, scan, scanLoop, hn, show (cInt msg.length).toNat = 0 by omega]
      exact Yields.throw
    simpa [hf0, wsFrame] using Yields.bind_none hs
  have hlen : cInt msg.length = f.length := by omega
  have hs₀ := skipToToken_yields (L := L) hf (List.suffix_refl f) (Nat.zero_le _)
  rw [Nat.sub_self, ← hlen, List.drop_zero] at hs₀
  unfold wsFrame
  refine Yields.bind_ite hs₀ fun ht₀ => ?_
  set t₀ := f.dropWhile isspace
  have ht₀f : t₀ <:+ f := List.dropWhile_suffix _
  refine Yields.bind (scanToken_yields hf ht₀f) ?_
  obtain ⟨-, -, hr₁f⟩ := token_end ht₀f (! isspace ·)
  have hkr := length_takeWhile_add (! isspace ·) t₀
  have ht₀l := ht₀f.length_le
  set key := t₀.takeWhile (! isspace ·)
  set r₁ := t₀.dropWhile (! isspace ·)
  dsimp only
  refine Yields.guard (by rw [← List.length_eq_zero]; omega) fun hk => ?_
  have hkw : window msg (f.length - t₀.length) key.length = key := by
    rw [window_of_frame_suffix hf ht₀f (by omega), take_takeWhile_length]
  simp only [not_or, Nat.not_lt] at hk
  refine Yields.bind (memcpy_yields _ _ _ fun i hi => ⟨show _ < _ by omega, ?_⟩)
    (Yields.bind (store_yields _ _ ?_) ?_)
  · show 0 ≤ (i : Int) ∧ (i : Int) < jbrMaxKeyLen + 1
    omega
  · show 0 ≤ (key.length : Int) ∧ (key.length : Int) < jbrMaxKeyLen + 1
    omega
  have hs₁ := skipToToken_yields (L := L) hf ht₀f (show key.length ≤ t₀.length by omega)
  rw [drop_takeWhile_length] at hs₁
  rw [hkw]
  refine Yields.bind_ite hs₁ fun ht₁ => ?_
  set t₁ := r₁.dropWhile isspace
  have ht₁f : t₁ <:+ f := (List.dropWhile_suffix _).trans hr₁f
  refine Yields.bind (scanToken_yields hf ht₁f) (Yields.bind (jbwsCommand_yields hf ht₁f) ?_)
  generalize (if t₁.dropWhile (! isspace ·) = [] then none
    else jbwsOpOf t₁ (t₁.takeWhile (! isspace ·)).length jbwsKeywords) = x
  cases x with
  | none =>
      rw [Option.elim_none]
      have hend : InFrame L f.length (.write .input ((f.length - t₁.length : Nat) + t₁.length)) :=
        show _ = _ by have := ht₁f.length_le; omega
      rw [if_neg (show ¬ ((t₁.length : Int) = 0) from
        fun h => ht₁ (List.length_eq_zero.mp (by omega))), Int.toNat_ofNat, window_of_frame_suffix hf ht₁f le_rfl,
        List.take_length]
      exact Yields.bind (store_yields _ _ hend) (Yields.pure _)
  | some op =>
      rw [Option.elim_some]
      have := jbrWsDocument_yields (L := L) hf ht₁f (cstr key) op
        (List.takeWhile_prefix (! isspace ·)).length_le
      rwa [drop_takeWhile_length] at this

/-- What the parser hands on: it is `wsFrame` of the first `(int) msg.len` bytes. -/
theorem wsResult_eq_wsFrame (L : Limits) (msg : Bytes) :
    wsResult L msg = wsFrame L (window msg 0 (cInt msg.length).toNat) :=
  (jbrWsOnMessage_yields L msg).result_eq

theorem wsAccesses_inFrame (L : Limits) (msg : Bytes) :
    ∀ a ∈ wsAccesses L msg, InFrame L (cInt msg.length).toNat a :=
  (jbrWsOnMessage_yields L msg).accesses_mem

end Jbr.Ws
