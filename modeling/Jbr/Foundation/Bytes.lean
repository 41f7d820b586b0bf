import Mathlib

/-!
# Bytes and the C library calls of `jbr.c`

The gateway works on `char` buffers that carry an explicit length.  A buffer is a
list of bytes; `cstr` is the C string it holds, up to its first NUL.  Character
classes are those of the C locale, in which `isspace` and `isdigit` hold of no
byte above `0x7f`.  Numbers are read by `strtoll` (libc) and `iwatoi` (iowow) and
written by `printf`-style formatting; `int` and `int64_t` conversions wrap as
GCC defines them.
-/

namespace Jbr.Foundation

abbrev Bytes := List UInt8

def lit (s : String) : Bytes := s.toList.map fun c => c.toNat.toUInt8

def crlf : Bytes := [13, 10]

def isspace (b : UInt8) : Bool := b == 32 || (9 ≤ b && b ≤ 13)

def isdigit (b : UInt8) : Bool := 48 ≤ b && b ≤ 57

/-- The C string held by a NUL-terminated buffer. -/
def cstr (b : Bytes) : Bytes := b.takeWhile (· != 0)

/-- `strncmp (s₁, s₂, n) == 0`; a byte past the end of a list reads as NUL. -/
def strncmpEq : Bytes → Bytes → Nat → Bool
  | _, _, 0 => true
  | s₁, s₂, n + 1 =>
      s₁.headD 0 == s₂.headD 0 && (s₁.headD 0 == 0 || strncmpEq s₁.tail s₂.tail n)

def occurs (n : Bytes) : Bytes → Bool
  | [] => n.isPrefixOf []
  | b :: t => n.isPrefixOf (b :: t) || occurs n t

/-- `strstr (h, n) != NULL` -/
def strstr (h n : Bytes) : Bool := occurs n (cstr h)

/-- `(int)` of a `size_t`, modulo `2^32` as GCC defines it. -/
def cInt (n : Nat) : Int :=
  if n % 2 ^ 32 < 2 ^ 31 then n % 2 ^ 32 else (n % 2 ^ 32 : Nat) - 2 ^ 32

theorem cstr_of_not_mem {b : Bytes} (h : (0 : UInt8) ∉ b) : cstr b = b :=
  List.takeWhile_eq_self_iff.mpr fun x hx => by
    simpa using fun e : x = 0 => h (e ▸ hx)

theorem cstr_append_of_not_mem {b : Bytes} (r : Bytes) (h : (0 : UInt8) ∉ b) :
    cstr (b ++ r) = b ++ cstr r :=
  List.takeWhile_append_of_pos fun x hx => by
    simpa using fun e : x = 0 => h (e ▸ hx)

theorem cInt_toNat_le (n : Nat) : (cInt n).toNat ≤ n := by
  unfold cInt
  split <;> omega

theorem cInt_of_lt {n : Nat} (h : n < 2 ^ 31) : cInt n = n := by
  unfold cInt
  split <;> omega

def wrap64 (v : Int) : Int :=
  if v % 2 ^ 64 < 2 ^ 63 then v % 2 ^ 64 else v % 2 ^ 64 - 2 ^ 64

def llongMax : Int := 2 ^ 63 - 1

def llongMin : Int := -2 ^ 63

def digitValue (ds : Bytes) : Nat :=
  ds.foldl (fun acc b => 10 * acc + (b.toNat - 48)) 0

def strtollSign (t : Bytes) : Bool × Nat :=
  if t.head? = some 45 then (true, 1) else if t.head? = some 43 then (false, 1) else (false, 0)

/-- `strtoll (s, &end, 10)` on the buffer `s`, whose end reads as NUL. -/
def strtoll (s : Bytes) : Int × Nat :=
  let sp := (s.takeWhile isspace).length
  let t := s.drop sp
  let sign := strtollSign t
  let ds := (t.drop sign.2).takeWhile isdigit
  if ds = [] then (0, 0)
  else
    let v : Int := if sign.1 then -(digitValue ds : Int) else digitValue ds
    (max llongMin (min v llongMax), sp + sign.2 + ds.length)

/-- `num = num * 10 + *str - '0'` in `int64_t`, the digit loop of `iwatoi`. -/
def iwatoiDigits (num : Int) : Bytes → Int
  | [] => num
  | b :: bs => if isdigit b then iwatoiDigits (wrap64 (num * 10 + (b.toNat - 48))) bs else num

def iwatoiSign (t : Bytes) : Int × Bytes :=
  if t.head? = some 45 then (-1, t.tail) else if t.head? = some 43 then (1, t.tail) else (1, t)

/-- iowow's `iwatoi` on the C string `s`. -/
def iwatoi (s : Bytes) : Int :=
  let t := (cstr s).dropWhile fun b => 0 < b && b ≤ 32
  let sign := iwatoiSign t
  if sign.2 = lit "inf" then wrap64 (llongMax * sign.1)
  else wrap64 (iwatoiDigits 0 sign.2 * sign.1)

/-! ## `iwatoi` on a run of digits -/

theorem wrap64_emod (a : Int) : wrap64 a % 2 ^ 64 = a % 2 ^ 64 := by
  unfold wrap64
  split <;> omega

theorem wrap64_congr {a b : Int} (h : a % 2 ^ 64 = b % 2 ^ 64) : wrap64 a = wrap64 b := by
  unfold wrap64
  rw [h]

theorem digitValue_foldl (l : Bytes) (a : Nat) :
    l.foldl (fun acc b => 10 * acc + (b.toNat - 48)) a = a * 10 ^ l.length + digitValue l := by
  induction l generalizing a with
  | nil => simp [digitValue]
  | cons b l ih =>
      simp only [List.foldl_cons, digitValue, List.length_cons] at ih ⊢
      rw [ih, ih (10 * 0 + (b.toNat - 48)), pow_succ]
      ring

theorem iwatoiDigits_wrap (s : Bytes) (n : Int) (h : ∀ b ∈ s, isdigit b = true) :
    wrap64 (iwatoiDigits n s) = wrap64 (n * 10 ^ s.length + digitValue s) := by
  induction s generalizing n with
  | nil => simp [iwatoiDigits, digitValue]
  | cons b s ih =>
      have hb := h b (List.mem_cons_self b s)
      have hd : 48 ≤ b.toNat := by
        simp only [isdigit, Bool.and_eq_true, decide_eq_true_eq] at hb
        exact hb.1
      rw [iwatoiDigits, if_pos hb, ih _ fun x hx => h x (List.mem_cons_of_mem b hx)]
      apply wrap64_congr
      have hdv : (digitValue (b :: s) : Int) = ((b.toNat : Int) - 48) * 10 ^ s.length + digitValue s := by
        show ((List.foldl _ (10 * 0 + (b.toNat - 48)) s : Nat) : Int) = _
        rw [digitValue_foldl]
        push_cast [hd]
        ring
      have hmod : Int.ModEq (2 ^ 64) (wrap64 (n * 10 + ((b.toNat : Int) - 48)))
          (n * 10 + ((b.toNat : Int) - 48)) := wrap64_emod _
      calc (wrap64 (n * 10 + ((b.toNat : Int) - 48)) * 10 ^ s.length + digitValue s) % 2 ^ 64
          = ((n * 10 + ((b.toNat : Int) - 48)) * 10 ^ s.length + digitValue s) % 2 ^ 64 :=
            (hmod.mul_right _).add_right _
        _ = _ := by rw [hdv, List.length_cons, pow_succ]; ring_nf

theorem iwatoi_digits (ds : Bytes) (h : ∀ b ∈ ds, isdigit b = true) :
    iwatoi ds = wrap64 (digitValue ds) := by
  cases ds with
  | nil => simp [iwatoi, cstr, iwatoiSign, iwatoiDigits, lit, digitValue, wrap64]
  | cons b s =>
      have hb := h b (List.mem_cons_self b s)
      have hnz : ∀ x ∈ b :: s, (x != 0) = true := fun x hx => by
        have := h x hx
        simp only [isdigit, Bool.and_eq_true, decide_eq_true_eq] at this
        simp only [bne_iff_ne, ne_eq]
        rintro rfl
        exact absurd this.1 (by decide)
      simp only [isdigit, Bool.and_eq_true, decide_eq_true_eq] at hb
      have hlo : 48 ≤ b.toNat := hb.1
      have hhi : b.toNat ≤ 57 := hb.2
      have h45 : b ≠ 45 := by rintro rfl; exact absurd hlo (by decide)
      have h43 : b ≠ 43 := by rintro rfl; exact absurd hlo (by decide)
      have hlow : (decide (0 < b) && decide (b ≤ 32)) = false := by
        simp only [Bool.and_eq_false_iff, decide_eq_false_iff_not]
        right
        intro h32
        have : b.toNat ≤ 32 := h32
        omega
      have hinf : b :: s ≠ lit "inf" := by
        intro heq
        rw [show lit "inf" = [105, 110, 102] from rfl] at heq
        obtain ⟨rfl, -⟩ := List.cons.inj heq
        exact absurd hhi (by decide)
      have hwrap := iwatoiDigits_wrap (b :: s) 0 h
      simp only [zero_mul, zero_add] at hwrap
      simp [iwatoi, List.takeWhile_eq_self_iff.mpr hnz, cstr, iwatoiSign, h45, h43, hlow, hinf,
        hwrap]

def natDigits (n : Nat) : Bytes := (Nat.toDigits 10 n).map fun c => c.toNat.toUInt8

/-- `printf ("%lld", v)`, and iowow's `iwitoa`. -/
def decimal (v : Int) : Bytes :=
  if v < 0 then 45 :: natDigits v.natAbs else natDigits v.toNat

/-- `printf ("%zX", n)` -/
def hexUpper (n : Nat) : Bytes := (Nat.toDigits 16 n).map fun c => c.toUpper.toNat.toUInt8

example : strtoll (lit "+12x") = (12, 3) := by decide

example : strtoll (lit "99999999999999999999") = (llongMax, 20) := by decide

example : iwatoi (lit "0042") = 42 := by decide

example : hexUpper 4096 = lit "1000" ∧ hexUpper 255 = lit "FF" := by decide

/-! ## Printed numbers read back -/

theorem foldl_base {α : Type} (b : Nat) (val : α → Nat) (l : List α) (a : Nat) :
    l.foldl (fun acc c => b * acc + val c) a =
      a * b ^ l.length + l.foldl (fun acc c => b * acc + val c) 0 := by
  induction l generalizing a with
  | nil => simp
  | cons c l ih =>
      simp only [List.foldl_cons, List.length_cons]
      rw [ih, ih (b * 0 + val c), pow_succ]
      ring

theorem toDigitsCore_fold (b : Nat) (hb : 1 < b) (val : Char → Nat)
    (hval : ∀ k < b, val (Nat.digitChar k) = k) (fuel n : Nat) (ds : List Char) (hn : n < fuel) :
    (Nat.toDigitsCore b fuel n ds).foldl (fun acc c => b * acc + val c) 0 =
        n * b ^ ds.length + ds.foldl (fun acc c => b * acc + val c) 0 ∧
      ∀ c ∈ Nat.toDigitsCore b fuel n ds, c ∈ ds ∨ ∃ k < b, c = Nat.digitChar k := by
  induction fuel generalizing n ds with
  | zero => omega
  | succ fuel ih =>
      have hd := hval (n % b) (Nat.mod_lt _ (by omega))
      have hmem : ∀ c ∈ Nat.digitChar (n % b) :: ds, c ∈ ds ∨ ∃ k < b, c = Nat.digitChar k :=
        fun c hc => (List.mem_cons.mp hc).elim (fun h => .inr ⟨_, Nat.mod_lt _ (by omega), h⟩) .inl
      simp only [Nat.toDigitsCore]
      split
      · rename_i h0
        have hnb : n % b = n := Nat.mod_eq_of_lt ((Nat.div_eq_zero_iff (by omega)).mp h0)
        refine ⟨?_, hmem⟩
        rw [List.foldl_cons, foldl_base, hd, hnb]
        ring
      · rename_i h0
        obtain ⟨ih₁, ih₂⟩ := ih (n / b) (Nat.digitChar (n % b) :: ds)
          (by
            have := Nat.div_lt_self (Nat.pos_of_ne_zero fun h => h0 (h ▸ Nat.zero_div b)) hb
            omega)
        refine ⟨?_, fun c hc => (ih₂ c hc).elim (hmem c) .inr⟩
        rw [ih₁, List.foldl_cons, foldl_base, hd, List.length_cons, pow_succ]
        calc n / b * (b ^ ds.length * b) + ((b * 0 + n % b) * b ^ ds.length +
              ds.foldl (fun acc c => b * acc + val c) 0)
            = (b * (n / b) + n % b) * b ^ ds.length + ds.foldl (fun acc c => b * acc + val c) 0 := by
              ring
          _ = _ := by rw [Nat.div_add_mod]

theorem toDigits_ne_nil (b n : Nat) : Nat.toDigits b n ≠ [] := by
  simp only [Nat.toDigits, Nat.toDigitsCore]
  split
  · exact List.cons_ne_nil _ _
  · exact List.ne_nil_of_length_pos (by rw [Nat.toDigitsCore_lens_eq]; omega)

theorem natDigits_spec (n : Nat) :
    natDigits n ≠ [] ∧ (∀ b ∈ natDigits n, isdigit b = true) ∧ digitValue (natDigits n) = n := by
  have h := toDigitsCore_fold 10 (by decide) (fun c => c.toNat.toUInt8.toNat - 48)
    (by decide) (n + 1) n [] (by omega)
  refine ⟨by simp [natDigits, toDigits_ne_nil], fun b hb => ?_, ?_⟩
  · obtain ⟨c, hc, rfl⟩ := List.mem_map.mp hb
    rcases h.2 c hc with hc | ⟨k, hk, rfl⟩
    · cases hc
    · have key : ∀ k < 10, isdigit (Nat.digitChar k).toNat.toUInt8 = true := by decide
      exact key k hk
  · simpa [digitValue, natDigits, Nat.toDigits, List.foldl_map] using h.1

theorem decimal_of_pos {v : Int} (h : 0 < v) : decimal v = natDigits v.toNat := by
  simp [decimal, show ¬ v < 0 by omega]

theorem isspace_of_isdigit {b : UInt8} (h : isdigit b = true) : isspace b = false := by
  simp only [isdigit, Bool.and_eq_true, decide_eq_true_eq] at h
  have h1 : 48 ≤ b.toNat := h.1
  have h32 : b ≠ 32 := fun h' => absurd (h' ▸ h1) (by decide)
  have h13 : ¬ b ≤ 13 := fun h' => by have : b.toNat ≤ 13 := h'; omega
  simp [isspace, h32, h13]

theorem natDigits_length {n e : Nat} (h : n < 10 ^ e) (he : 0 < e) : (natDigits n).length ≤ e := by
  simpa [natDigits, Nat.toDigits] using Nat.toDigitsCore_length 10 (by decide) (n + 1) n e h he

end Jbr.Foundation
