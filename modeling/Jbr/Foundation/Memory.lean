import Jbr.Foundation.Bytes

/-!
# Memory accesses of the parsers

The parsers of `jbr.c` read their input through a pointer and an `int` length and
copy pieces of it into fixed stack buffers.  They run in `Mem`, an `EStateM` whose
state is the list of accesses made so far.  `throw ()` is the early `return` of
the C function; the accesses made before it stay recorded.  Offsets into the input
count from its first byte.
-/

namespace Jbr.Foundation

structure Limits where
  /-- `EJDB_COLLECTION_NAME_MAX_LEN` -/
  collectionNameMaxLen : Nat
  /-- `JBNUMBUF_SIZE` -/
  numBufSize : Nat
  /-- `char nbuf[JBNUMBUF_SIZE]` is an array, so the size is positive. -/
  numBufSize_pos : 0 < numBufSize

def Limits.sample : Limits := ⟨128, 64, by decide⟩

/-- `JBR_MAX_KEY_LEN` -/
def jbrMaxKeyLen : Nat := 36

inductive Buf where
  | input
  | nbuf
  | keybuf
  | cnamebuf
  | cname
  deriving DecidableEq, Repr

def Buf.size (L : Limits) : Buf → Nat
  | .input => 0
  | .nbuf => L.numBufSize
  | .keybuf => jbrMaxKeyLen + 1
  | .cnamebuf => L.collectionNameMaxLen + 1
  | .cname => L.collectionNameMaxLen + 1

inductive Access where
  /-- a byte of the input read at an offset -/
  | read (off : Nat)
  /-- a byte written at an index of a buffer -/
  | write (buf : Buf) (idx : Int)
  deriving DecidableEq, Repr

abbrev Mem := EStateM Unit (List Access)

section Run

variable {ε σ α β : Type}

@[simp] theorem run_bind (x : EStateM ε σ α) (f : α → EStateM ε σ β) (s : σ) :
    (x >>= f).run s =
      match x.run s with
      | .ok a s' => (f a).run s'
      | .error e s' => .error e s' := rfl

@[simp] theorem run_pure (a : α) (s : σ) : (pure a : EStateM ε σ α).run s = .ok a s := rfl

@[simp] theorem run_map (g : α → β) (x : EStateM ε σ α) (s : σ) :
    (g <$> x).run s =
      match x.run s with
      | .ok a s' => .ok (g a) s'
      | .error e s' => .error e s' := rfl

@[simp] theorem run_modify (f : σ → σ) (s : σ) :
    (modify f : EStateM ε σ Unit).run s = .ok () (f s) := rfl

@[simp] theorem run_get (s : σ) : (get : EStateM ε σ σ).run s = .ok s s := rfl

@[simp] theorem run_throw (e : ε) (s : σ) :
    (throw e : EStateM ε σ α).run s = .error e s := rfl

end Run

def outcome {α : Type} : Option α → List Access → EStateM.Result Unit (List Access) α
  | some a, s => .ok a s
  | none, s => .error () s

@[simp] theorem outcome_some {α : Type} (a : α) (s : List Access) :
    outcome (some a) s = .ok a s := rfl

@[simp] theorem outcome_none {α : Type} (s : List Access) :
    outcome (none : Option α) s = .error () s := rfl

/-- `data[off]`: one byte of the input. -/
def load (mem : Bytes) (off : Nat) : Mem UInt8 :=
  modifyGet fun s => (mem.getD off 0, s ++ [.read off])

/-- `buf[idx] = ...` -/
def store (buf : Buf) (idx : Int) : Mem Unit :=
  modify (· ++ [.write buf idx])

/-- `memcpy (buf, src, n)` from the input: `n` reads and `n` writes. -/
def memcpy (buf : Buf) (src n : Nat) : Mem Unit :=
  modify (· ++ (List.range n).map (fun i => .read (src + i)) ++
    (List.range n).map (fun i => .write buf i))

/-! ## What a run appends -/

def Yields {α : Type} (x : Mem α) (o : Option α) (P : Access → Prop) : Prop :=
  ∀ s, ∃ t, x.run s = outcome o (s ++ t) ∧ ∀ a ∈ t, P a

namespace Yields

variable {α β : Type} {P : Access → Prop}

theorem pure (a : α) : Yields (Pure.pure a : Mem α) (some a) P :=
  fun s => ⟨[], by simp, by simp⟩

theorem throw : Yields (MonadExcept.throw () : Mem α) none P :=
  fun s => ⟨[], by simp, by simp⟩

theorem bind {x : Mem α} {f : α → Mem β} {a : α} {o : Option β}
    (hx : Yields x (some a) P) (hf : Yields (f a) o P) : Yields (x >>= f) o P := by
  intro s
  obtain ⟨t₁, h₁, p₁⟩ := hx s
  obtain ⟨t₂, h₂, p₂⟩ := hf (s ++ t₁)
  refine ⟨t₁ ++ t₂, ?_, fun b hb => ?_⟩
  · simp only [run_bind, h₁, outcome_some]
    rw [h₂, List.append_assoc]
  · rcases List.mem_append.mp hb with hb | hb
    exacts [p₁ b hb, p₂ b hb]

theorem bind_none {x : Mem α} {f : α → Mem β} (hx : Yields x none P) :
    Yields (x >>= f) none P := by
  intro s
  obtain ⟨t, h, p⟩ := hx s
  exact ⟨t, by rw [run_bind, h]; rfl, p⟩

theorem map {x : Mem α} {g : α → β} {a : α} (hx : Yields x (some a) P) :
    Yields (g <$> x) (some (g a)) P := by
  intro s
  obtain ⟨t, h, p⟩ := hx s
  exact ⟨t, by rw [run_map, h]; rfl, p⟩

theorem bind_ite {c : Prop} [Decidable c] {x : Mem α} {f : α → Mem β} {a : α}
    {o : Option β} (hx : Yields x (if c then none else some a) P) (hf : ¬ c → Yields (f a) o P) :
    Yields (x >>= f) (if c then none else o) P := by
  by_cases h : c
  · rw [if_pos h] at hx ⊢
    exact bind_none hx
  · rw [if_neg h] at hx ⊢
    exact bind hx (hf h)

theorem guard {c c' : Prop} [Decidable c] [Decidable c'] (hc : c ↔ c') {k : Mem α}
    {o : Option α} (hk : ¬ c' → Yields k o P) :
    Yields (if c then MonadExcept.throw () else k) (if c' then none else o) P := by
  by_cases h : c'
  · rw [if_pos (hc.mpr h), if_pos h]
    exact throw
  · rw [if_neg (mt hc.mp h), if_neg h]
    exact hk h

theorem mono {x : Mem α} {o : Option α} {Q : Access → Prop} (h : Yields x o P)
    (hPQ : ∀ a, P a → Q a) : Yields x o Q := by
  intro s
  obtain ⟨t, ht, p⟩ := h s
  exact ⟨t, ht, fun a ha => hPQ a (p a ha)⟩

end Yields

def result {α : Type} (x : Mem α) : Option α :=
  match x.run [] with
  | .ok a _ => some a
  | .error _ _ => none

def accesses {α : Type} (x : Mem α) : List Access :=
  match x.run [] with
  | .ok _ s => s
  | .error _ s => s

theorem Yields.result_eq {α : Type} {x : Mem α} {o : Option α} {P : Access → Prop}
    (h : Yields x o P) : result x = o := by
  obtain ⟨t, ht, -⟩ := h []
  unfold result
  rw [ht]
  cases o <;> rfl

theorem Yields.accesses_mem {α : Type} {x : Mem α} {o : Option α} {P : Access → Prop}
    (h : Yields x o P) : ∀ a ∈ accesses x, P a := by
  obtain ⟨t, ht, hP⟩ := h []
  unfold accesses
  rw [ht]
  cases o <;> simpa using hP

theorem load_yields {P : Access → Prop} (mem : Bytes) (off : Nat) (h : P (.read off)) :
    Yields (load mem off) (some (mem.getD off 0)) P :=
  fun s => ⟨[.read off], rfl, by simpa using h⟩

theorem store_yields {P : Access → Prop} (buf : Buf) (idx : Int) (h : P (.write buf idx)) :
    Yields (store buf idx) (some ()) P :=
  fun s => ⟨[.write buf idx], rfl, by simpa using h⟩

theorem memcpy_yields {P : Access → Prop} (buf : Buf) (src n : Nat)
    (h : ∀ i < n, P (.read (src + i)) ∧ P (.write buf i)) :
    Yields (memcpy buf src n) (some ()) P := by
  intro s
  refine ⟨(List.range n).map (fun i => .read (src + i)) ++
    (List.range n).map (fun i => .write buf i), ?_, fun a ha => ?_⟩
  · show EStateM.Result.ok () (s ++ _ ++ _) = _
    rw [List.append_assoc]
    rfl
  simp only [List.mem_append, List.mem_map, List.mem_range] at ha
  rcases ha with ⟨i, hi, rfl⟩ | ⟨i, hi, rfl⟩
  exacts [(h i hi).1, (h i hi).2]

def scanLoop (p : UInt8 → Bool) (mem : Bytes) (data : Nat) : Nat → Nat → Mem Nat
  | 0, pos => pure pos
  | fuel + 1, pos => do
      if p (← load mem (data + pos)) then scanLoop p mem data fuel (pos + 1) else pure pos

/-- `for (; pos < len && p (data[pos]); ++pos);` -/
def scan (p : UInt8 → Bool) (mem : Bytes) (data : Nat) (len : Int) (pos : Nat) : Mem Nat :=
  scanLoop p mem data (len - pos).toNat pos

/-- The bytes `data[0 .. len)`. -/
def window (mem : Bytes) (data len : Nat) : Bytes := (mem.drop data).take len

theorem scanLoop_yields {P : Access → Prop} (p : UInt8 → Bool) (mem : Bytes)
    (data fuel pos : Nat) (h : fuel ≤ mem.length - (data + pos))
    (hP : ∀ o, data + pos ≤ o → o < data + pos + fuel → P (.read o)) :
    Yields (scanLoop p mem data fuel pos)
      (some (pos + ((window mem (data + pos) fuel).takeWhile p).length)) P := by
  induction fuel generalizing pos with
  | zero => simpa [scanLoop, window] using Yields.pure pos
  | succ fuel ih =>
      have hget : mem.getD (data + pos) 0 = mem[data + pos] := by
        simp [List.getD_eq_getElem?_getD,
          List.getElem?_eq_getElem (show data + pos < mem.length by omega)]
      have hwin : window mem (data + pos) (fuel + 1) =
          mem[data + pos] :: window mem (data + (pos + 1)) fuel := by
        simp only [window, ← Nat.add_assoc]
        rw [List.drop_eq_getElem_cons (by omega), List.take_succ_cons]
      refine Yields.bind (load_yields mem _ (hP _ le_rfl (by omega))) ?_
      rw [hget, hwin]
      by_cases hp : p mem[data + pos] = true
      · have := ih (pos + 1) (by omega) (fun o h₁ h₂ => hP o (by omega) (by omega))
        simp only [hp, if_true, List.takeWhile_cons_of_pos hp, List.length_cons]
        convert this using 2
        omega
      · simpa [hp, List.takeWhile_cons_of_neg hp] using Yields.pure pos

/-! ## Windows of the input -/

section Window

variable {mem w : Bytes} {data : Nat}

theorem window_drop_eq (h : w <+: mem.drop data) {pos : Nat} (hpos : pos ≤ w.length) :
    window mem (data + pos) (w.length - pos) = w.drop pos := by
  obtain ⟨r, hr⟩ := h
  rw [window, ← List.drop_drop, ← hr, List.drop_append_of_le_length hpos,
    List.take_append_of_le_length (by simp)]
  simp

theorem window_eq_take (h : w <+: mem.drop data) {n : Nat} (hn : n ≤ w.length) :
    window mem data n = w.take n := by
  obtain ⟨r, hr⟩ := h
  rw [window, ← hr, List.take_append_of_le_length hn]

theorem prefix_drop (h : w <+: mem.drop data) (k : Nat) : w.drop k <+: mem.drop (data + k) := by
  simpa [List.drop_drop, Nat.add_comm] using h.drop k

theorem getD_of_window (h : w <+: mem.drop data) {i : Nat} (hi : i < w.length) :
    mem.getD (data + i) 0 = w[i] := by
  have hlen := h.length_le
  simp only [List.length_drop] at hlen
  rw [h.getElem hi, List.getElem_drop, List.getD_eq_getElem?_getD,
    List.getElem?_eq_getElem (by omega), Option.getD_some]

theorem length_lt_one_iff {l : Bytes} : (l.length : Int) < 1 ↔ l = [] := by
  rw [← List.length_eq_zero]
  omega

theorem headD_drop (l : Bytes) (i : Nat) : (l.drop i).headD 0 = l.getD i 0 := by
  induction l generalizing i with
  | nil => simp
  | cons b l ih => cases i <;> simp [ih]

theorem getD_drop (l : Bytes) (i j : Nat) : (l.drop i).getD j 0 = l.getD (i + j) 0 := by
  simp [List.getD_eq_getElem?_getD, List.getElem?_drop]

theorem suffix_dropWhile_drop (p : UInt8 → Bool) (l : Bytes) (k : Nat) :
    (l.drop k).dropWhile p <:+ l :=
  (List.dropWhile_suffix p).trans (List.drop_suffix k l)

theorem drop_takeWhile_length (p : UInt8 → Bool) (l : Bytes) :
    l.drop (l.takeWhile p).length = l.dropWhile p := by
  have := List.drop_left (l.takeWhile p) (l.dropWhile p)
  rwa [List.takeWhile_append_dropWhile] at this

theorem length_takeWhile_add (p : UInt8 → Bool) (l : Bytes) :
    (l.takeWhile p).length + (l.dropWhile p).length = l.length := by
  conv_rhs => rw [← List.takeWhile_append_dropWhile p l]
  exact (List.length_append _ _).symm

theorem take_takeWhile_length (p : UInt8 → Bool) (l : Bytes) :
    l.take (l.takeWhile p).length = l.takeWhile p :=
  (List.prefix_iff_eq_take.mp (List.takeWhile_prefix p)).symm

theorem prefix_of_suffix (h : w <+: mem.drop data) {u : Bytes} (hu : u <:+ w) :
    u <+: mem.drop (data + (w.length - u.length)) := by
  have e := List.suffix_iff_eq_drop.mp hu
  have := prefix_drop h (w.length - u.length)
  rwa [← e] at this

theorem prefix_of_frame_suffix {f u : Bytes} (hf : f <+: mem) (hu : u <:+ f) :
    u <+: mem.drop (f.length - u.length) := by
  simpa using prefix_of_suffix (show f <+: mem.drop 0 by simpa using hf) hu

theorem window_of_frame_suffix {f u : Bytes} (hf : f <+: mem) (hu : u <:+ f) {n : Nat}
    (hn : n ≤ u.length) : window mem (f.length - u.length) n = u.take n :=
  window_eq_take (prefix_of_frame_suffix hf hu) hn

theorem scan_yields {P : Access → Prop} (p : UInt8 → Bool) (h : w <+: mem.drop data)
    {len : Int} (hlen : len = w.length) {pos : Nat} (hpos : pos ≤ w.length)
    (hP : ∀ o, o < data + w.length → P (.read o)) :
    Yields (scan p mem data len pos) (some (pos + ((w.drop pos).takeWhile p).length)) P := by
  have hb : w.length - pos ≤ mem.length - (data + pos) := by
    have := h.length_le
    simp at this
    omega
  have := scanLoop_yields p mem data _ pos hb (fun o _ ho => hP o (by omega))
  rw [window_drop_eq h hpos] at this
  rwa [scan, show (len - pos).toNat = w.length - pos by omega]

end Window

end Jbr.Foundation
