import Jbr.Lifecycle.Race

/-!
# Concurrent shutdowns without undefined behaviour

Callers of `jbr_shutdown (pjbr)` that race on one `*pjbr` do not run its statements
in order: while the winner of the compare-and-swap stops the endpoint, a loser may
free the supervisor and clear `*pjbr`.  Each effect on the shared world still
happens at most once, and `Effects` records which have happened.  Along every
interleaving the world is `Effects.world` of that record and every caller's place
fits it, so an interleaving in which every caller returns, none of them running
into undefined behaviour, leaves the world as one call of `jbr_shutdown` does.
-/

namespace Jbr.Lifecycle

/-- The effects of the callers on the shared world so far. -/
structure Effects (n : Nat) where
  winner : Option (Fin n)
  stage : Nat
  freed : Bool
  cleared : Bool
  deriving DecidableEq, Repr

def Effects.none (n : Nat) : Effects n := ⟨.none, 0, false, false⟩

def Effects.world {n : Nat} (w : World) (s : Supervisor) (e : Effects n) : World :=
  { w with
    heap := Function.update w.heap w.handle
      (if e.freed then .none else some { s with terminated := s.terminated || e.winner.isSome })
    preStart := if 1 ≤ e.stage then w.preStart.erase w.handle else w.preStart
    stops := if 2 ≤ e.stage then w.stops + 1 else w.stops
    workers := if 3 ≤ e.stage ∧ s.blocking = false then
        Function.update w.workers w.handle ((w.workers w.handle).map fun _ => .joined)
      else w.workers
    frees := if e.freed then w.frees ++ [w.handle] else w.frees
    handle := if e.cleared then 0 else w.handle }

structure Effects.Ok {n : Nat} (s : Supervisor) (e : Effects n) : Prop where
  won : e.winner.isSome → s.terminated = false
  stage_le : e.stage ≤ 3
  staged : 0 < e.stage → e.winner.isSome
  freed : e.freed → e.winner.isSome ∨ s.terminated
  cleared : e.cleared → e.freed

theorem Effects.Ok.stage {n : Nat} {s : Supervisor} {e : Effects n} (hok : e.Ok s) {i : Fin n}
    (hw : e.winner = some i) {k : Nat} (hk : k ≤ 3) : ({ e with stage := k } : Effects n).Ok s :=
  { hok with stage_le := hk, staged := fun _ => by simp [hw] }

def Pc.Fits {n : Nat} (a : Nat) (s : Supervisor) (e : Effects n) (i : Fin n) : Pc → Prop
  | .entry | .load => e.winner ≠ some i
  | .cas b => e.winner ≠ some i ∧ (b = a ∨ b = 0)
  | .remove b => b = a ∧ e.winner = some i ∧ e.stage = 0
  | .stop b => b = a ∧ e.winner = some i ∧ e.stage = 1
  | .join b => b = a ∧ e.winner = some i ∧ e.stage = 2
  | .release => (e.winner = some i → e.stage = 3) ∧ (e.winner.isSome ∨ s.terminated)
  | .free b => (e.winner = some i → e.stage = 3) ∧ (e.winner.isSome ∨ s.terminated) ∧
      (b = a ∨ b = 0 ∧ e.cleared)
  | .clear => (e.winner = some i → e.stage = 3) ∧ e.freed
  | .exit | .done => (e.winner = some i → e.stage = 3) ∧ e.cleared
  | .fault _ => True

/-! ## What the effects of one caller do to the others -/

section Others

variable {n : Nat} {a : Nat} {s : Supervisor} {e : Effects n} {j : Fin n} {pc : Pc}

theorem Pc.Fits.win (h : pc.Fits a s e j) (hn : e.winner = .none) {i : Fin n} (hji : j ≠ i) :
    pc.Fits a s { e with winner := some i } j := by
  have hij : some i ≠ some j := fun h => hji (Option.some_injective _ h).symm
  cases pc <;> simp_all [Pc.Fits]

theorem Pc.Fits.stage (h : pc.Fits a s e j) {i : Fin n} (hw : e.winner = some i) (hji : j ≠ i)
    (k : Nat) : pc.Fits a s { e with stage := k } j := by
  have hij : e.winner ≠ some j := by rw [hw]; exact fun h => hji (Option.some_injective _ h).symm
  cases pc <;> simp_all [Pc.Fits]

theorem Pc.Fits.free (h : pc.Fits a s e j) : pc.Fits a s { e with freed := true } j := by
  cases pc <;> simp_all [Pc.Fits]

theorem Pc.Fits.clear (h : pc.Fits a s e j) : pc.Fits a s { e with cleared := true } j := by
  cases pc <;> simp_all [Pc.Fits]
  exact h.2.2.imp_right And.left

end Others

/-! ## Every step keeps the world in agreement with the effects -/

/-- The world is `w` after the effects `e`, and every caller's place fits them. -/
structure Race.Agree (w : World) (s : Supervisor) {n : Nat} (r : Race n) (e : Effects n) :
    Prop where
  world : r.world = e.world w s
  ok : e.Ok s
  fits : ∀ i, (r.pc i).Fits w.handle s e i

section Steps

variable {w : World} {s : Supervisor} {n : Nat} {r : Race n} {e : Effects n}

theorem Effects.world_none (hs : w.heap w.handle = some s) : (Effects.none n).world w s = w := by
  have : Function.update w.heap w.handle (some { s with terminated := s.terminated }) = w.heap :=
    Function.update_eq_self_iff.mpr hs.symm
  simp [Effects.world, Effects.none, this]

theorem Race.start_agree (hs : w.heap w.handle = some s) :
    (Race.start n w).Agree w s (Effects.none n) where
  world := (Effects.world_none hs).symm
  ok := by constructor <;> simp [Effects.none]
  fits _ := by simp [Race.start, Pc.Fits, Effects.none]

theorem Race.Agree.to (h : r.Agree w s e) (i : Fin n) {pc : Pc} {e' : Effects n} {w' : World}
    (hw : w' = e'.world w s) (hok : e'.Ok s) (hi : pc.Fits w.handle s e' i)
    (hj : ∀ j, j ≠ i → (r.pc j).Fits w.handle s e j → (r.pc j).Fits w.handle s e' j) :
    Race.Agree w s ⟨w', Function.update r.pc i pc⟩ e' where
  world := hw
  ok := hok
  fits j := by
    by_cases hji : j = i
    · subst hji; simpa using hi
    · simpa [Function.update_noteq hji] using hj j hji (h.fits j)

theorem Race.Agree.move (h : r.Agree w s e) (i : Fin n) {pc : Pc}
    (hi : pc.Fits w.handle s e i) : Race.Agree w s ⟨r.world, Function.update r.pc i pc⟩ e :=
  h.to i h.world h.ok hi fun _ _ => id

theorem Effects.world_handle : (e.world w s).handle = if e.cleared then 0 else w.handle := rfl

theorem Effects.world_heap : (e.world w s).heap w.handle =
    if e.freed then .none else some { s with terminated := s.terminated || e.winner.isSome } := by
  simp [Effects.world]

theorem Race.Agree.step (h0 : w.handle ≠ 0) (h : r.Agree w s e) (i : Fin n) :
    ∃ e', (r.step i).Agree w s e' := by
  have hi := h.fits i
  have hh : r.world.handle = if e.cleared then 0 else w.handle := h.world ▸ Effects.world_handle
  have hheap := h.world ▸ Effects.world_heap (e := e) (w := w) (s := s)
  unfold Race.step
  generalize r.pc i = pc at hi
  cases pc with
  | entry =>
      refine ⟨e, h.move i ?_⟩
      simp only [shutdownStep]
      split_ifs with hz
      · rw [hh] at hz
        split_ifs at hz with hc
        · exact ⟨fun hw => absurd hw hi, hc⟩
        · exact absurd hz h0
      · exact hi
  | load =>
      refine ⟨e, h.move i ⟨hi, ?_⟩⟩
      rw [hh]
      split_ifs <;> simp
  | cas b =>
      obtain ⟨hwi, hb⟩ := hi
      simp only [shutdownStep]
      split_ifs with hb0
      · exact ⟨e, h.move i trivial⟩
      obtain rfl := hb.resolve_right hb0
      rw [hheap]
      cases hf : e.freed
      · simp only [Bool.false_eq_true, if_false]
        split_ifs with ht
        · -- `terminated` is set: the caller lost
          exact ⟨e, h.move i ⟨fun hw => absurd hw hwi, (by simpa using ht : _ ∨ _).symm⟩⟩
        · -- the caller wins, the first and only one to
          obtain ⟨hst, hn⟩ : s.terminated = false ∧ e.winner = .none := by simpa using ht
          have hs0 : e.stage = 0 := by
            by_contra hne
            simpa [hn] using h.ok.staged (Nat.pos_of_ne_zero hne)
          refine ⟨{ e with winner := some i }, h.to i ?_ ?_ ⟨rfl, rfl, hs0⟩ fun j hj hf => hf.win hn hj⟩
          · rw [h.world]
            simp [Effects.world, hf, hn]
          · exact ⟨fun _ => hst, h.ok.stage_le, fun _ => rfl, fun _ => .inl rfl, h.ok.cleared⟩
      · exact ⟨e, h.move i trivial⟩
  | remove b =>
      obtain ⟨rfl, hwi, hs0⟩ := hi
      refine ⟨{ e with stage := 1 }, h.to i ?_ ?_ ⟨rfl, hwi, rfl⟩
        fun j hj hf => hf.stage hwi hj 1⟩
      · rw [h.world]
        simp [shutdownStep, Effects.world, hs0]
      · exact h.ok.stage hwi (by decide)
  | stop b =>
      obtain ⟨rfl, hwi, hs1⟩ := hi
      refine ⟨{ e with stage := 2 }, h.to i ?_ ?_ ⟨rfl, hwi, rfl⟩
        fun j hj hf => hf.stage hwi hj 2⟩
      · rw [h.world]
        simp [shutdownStep, Effects.world, hs1]
      · exact h.ok.stage hwi (by decide)
  | join b =>
      obtain ⟨rfl, hwi, hs2⟩ := hi
      simp only [shutdownStep]
      rw [hheap]
      cases hf : e.freed
      · simp only [Bool.false_eq_true, if_false]
        refine ⟨{ e with stage := 3 }, h.to i ?_ ?_ ⟨fun _ => rfl, by simp [hwi]⟩
          fun j hj hf => hf.stage hwi hj 3⟩
        · rw [h.world]
          cases hb : s.blocking <;> simp [Effects.world, hs2, hb]
        · exact h.ok.stage hwi le_rfl
      · exact ⟨e, h.move i trivial⟩
  | release =>
      refine ⟨e, h.move i ⟨hi.1, hi.2, ?_⟩⟩
      rw [hh]
      split_ifs with hc
      · exact .inr ⟨rfl, hc⟩
      · exact .inl rfl
  | free b =>
      obtain ⟨hwi, hws, hb⟩ := hi
      simp only [shutdownStep]
      split_ifs with hb0
      · exact ⟨e, h.move i ⟨hwi, h.ok.cleared (hb.resolve_left (fun h => h0 (h ▸ hb0)) |>.2)⟩⟩
      obtain rfl := hb.resolve_right fun h => hb0 h.1
      rw [hheap]
      cases hf : e.freed
      · simp only [Bool.false_eq_true, if_false]
        refine ⟨{ e with freed := true }, h.to i ?_ ?_ ⟨hwi, rfl⟩ fun j _ hf => hf.free⟩
        · rw [h.world]
          simp [Effects.world, hf]
        · exact { h.ok with freed := fun _ => hws, cleared := fun _ => rfl }
      · exact ⟨e, h.move i trivial⟩
  | clear =>
      refine ⟨{ e with cleared := true }, h.to i ?_ ?_ ⟨hi.1, rfl⟩ fun j _ hf => hf.clear⟩
      · rw [h.world]
        simp [shutdownStep, Effects.world]
      · exact { h.ok with cleared := fun _ => hi.2 }
  | exit =>
      refine ⟨e, ?_⟩
      have hw : (shutdownStep r.world .exit).2 = r.world := by
        rw [h.world]
        simp [shutdownStep, Effects.world, hi.2]
      rw [hw]
      exact h.move i hi
  | done => exact ⟨e, h.move i hi⟩
  | fault f => exact ⟨e, h.move i trivial⟩

theorem Race.Agree.run (h0 : w.handle ≠ 0) (h : r.Agree w s e) (sched : List (Fin n)) :
    ∃ e', (r.run sched).Agree w s e' := by
  induction sched generalizing r e with
  | nil => exact ⟨e, h⟩
  | cons i sched ih =>
      obtain ⟨e', h'⟩ := h.step h0 i
      exact ih h'

end Steps

/-! ## Interleavings in which every caller returns -/

theorem Race.run_null {w : World} (h0 : w.handle = 0) {n : Nat} (r : Race n) (hr : r.world = w)
    (hpc : ∀ i, r.pc i = .entry ∨ r.pc i = .done) (sched : List (Fin n)) : (r.run sched).world = w := by
  induction sched generalizing r with
  | nil => exact hr
  | cons i sched ih =>
      refine ih _ ?_ fun j => ?_
      · rcases hpc i with hp | hp <;> simp [Race.step, shutdownStep, hp, hr]
      · by_cases hj : j = i
        · subst hj; rcases hpc j with hp | hp <;> simp [Race.step, shutdownStep, hp, hr, h0]
        · simp [Race.step, Function.update_noteq hj, hpc j]

theorem jbrShutdown_eq_world {w : World} {s : Supervisor} {n : Nat} (h0 : w.handle ≠ 0)
    (hs : w.heap w.handle = some s) {e : Effects n} (hok : e.Ok s) (hf : e.freed) (hc : e.cleared)
    (hj : ∀ i, e.winner = some i → e.stage = 3) : jbrShutdown w = e.world w s := by
  cases ht : s.terminated
  · obtain ⟨i, hi⟩ := Option.isSome_iff_exists.mp ((hok.freed hf).resolve_right (by simp [ht]))
    cases hb : s.blocking <;> simp [jbrShutdown, Effects.world, h0, hs, ht, hb, hf, hc, hj i hi]
  · have hn : e.winner = .none := by
      by_contra hne
      simpa [ht] using hok.won (Option.ne_none_iff_isSome.mp hne)
    have hs0 : e.stage = 0 := by
      by_contra hne
      simpa [hn] using hok.staged (Nat.pos_of_ne_zero hne)
    simp [jbrShutdown, Effects.world, h0, hs, ht, hf, hc, hn, hs0]

/-- However many callers race in `jbr_shutdown` on one world whose `*pjbr` is `NULL`
or names a supervisor, every interleaving in which all of them return, none running
into undefined behaviour, leaves the world as one call of `jbr_shutdown` does. -/
theorem run_world_eq_jbrShutdown (w : World) (hw : w.handle = 0 ∨ w.heap w.handle ≠ none)
    {n : Nat} (hn : 0 < n) (sched : List (Fin n))
    (hdone : ∀ i, ((Race.start n w).run sched).pc i = .done) :
    ((Race.start n w).run sched).world = jbrShutdown w := by
  by_cases h0 : w.handle = 0
  · rw [jbrShutdown_of_null h0]
    exact Race.run_null h0 _ rfl (fun _ => .inl rfl) sched
  obtain ⟨s, hs⟩ := Option.ne_none_iff_exists'.mp (hw.resolve_left h0)
  obtain ⟨e, h⟩ := (Race.start_agree (n := n) hs).run h0 sched
  have hfit : ∀ i, Pc.Fits w.handle s e i .done := fun i => hdone i ▸ h.fits i
  have hc : e.cleared := (hfit ⟨0, hn⟩).2
  rw [h.world, jbrShutdown_eq_world h0 hs h.ok (h.ok.cleared hc) hc fun i hi => (hfit i).1 hi]

theorem run_world_eq_jbrShutdown_started :
    ((jbrStart true ⟨none, false, false⟩ ⟨true, true, true, true⟩ World.init).2.handle = 0 ∨
      (jbrStart true ⟨none, false, false⟩ ⟨true, true, true, true⟩ World.init).2.heap
        (jbrStart true ⟨none, false, false⟩ ⟨true, true, true, true⟩ World.init).2.handle ≠ none) ∧
    0 < 2 ∧
    (∀ i, ((Race.start 2 (jbrStart true ⟨none, false, false⟩ ⟨true, true, true, true⟩
        World.init).2).run [0, 1, 0, 1, 0, 1, 0, 0, 0, 0, 0, 0, 1, 1, 1, 1, 0]).pc i = .done) ∧
    ((Race.start 2 (jbrStart true ⟨none, false, false⟩ ⟨true, true, true, true⟩
        World.init).2).run [0, 1, 0, 1, 0, 1, 0, 0, 0, 0, 0, 0, 1, 1, 1, 1, 0]).world =
      jbrShutdown (jbrStart true ⟨none, false, false⟩ ⟨true, true, true, true⟩ World.init).2 :=
  ⟨.inr (by decide), by decide, by decide,
    run_world_eq_jbrShutdown _ (.inr (by decide)) (by decide) _ (by decide)⟩

end Jbr.Lifecycle
