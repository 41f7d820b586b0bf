import Jbr.Lifecycle

/-!
# Concurrent shutdowns

`jbr_shutdown (pjbr)` guards the stop of the endpoint with a compare-and-swap of
`jbr->terminated` from `0` to `1`, so that only one caller unregisters the
callback, calls `fio_stop` and joins the worker.  Here each statement of
`jbr_shutdown` that touches shared memory is one atomic step of a thread, and any
number of threads interleave on one `World`.  A thread alone computes
`jbrShutdown`; in every interleaving `fio_stop` is called at most once; but the
release after the compare-and-swap is not guarded, and two threads can free the
supervisor twice, read it after it was freed, or dereference the `NULL` that the
other left in `*pjbr`.
-/

namespace Jbr.Lifecycle

/-- Undefined behaviour a thread can run into. -/
inductive Fault where
  | nullDeref
  | useAfterFree
  | doubleFree
  deriving DecidableEq, Repr

/-- Where a thread is in `jbr_shutdown (pjbr)`, with its local `jbr`. -/
inductive Pc where
  /-- `if (!*pjbr) return 0;` -/
  | entry
  /-- `JBR jbr = *pjbr;` -/
  | load
  /-- `__sync_bool_compare_and_swap (&jbr->terminated, 0, 1)` -/
  | cas (jbr : Nat)
  /-- `fio_state_callback_remove (FIO_CALL_PRE_START, _jbr_on_pre_start, jbr);` -/
  | remove (jbr : Nat)
  /-- `fio_stop ();` -/
  | stop (jbr : Nat)
  /-- `if (!jbr->http->blocking) pthread_join (jbr->worker_thread, 0);` -/
  | join (jbr : Nat)
  /-- `JBR jbr = *pjbr;` in `_jbr_release` -/
  | release
  /-- `free (jbr);` -/
  | free (jbr : Nat)
  /-- `*pjbr = 0;` in `_jbr_release` -/
  | clear
  /-- `*pjbr = 0; return 0;` -/
  | exit
  | done
  | fault (f : Fault)
  deriving DecidableEq, Repr

/-- One statement of `jbr_shutdown`, from the shared world. -/
def shutdownStep (w : World) : Pc → Pc × World
  | .entry => (if w.handle = 0 then .done else .load, w)
  | .load => (.cas w.handle, w)
  | .cas a =>
      if a = 0 then (.fault .nullDeref, w) else
      match w.heap a with
      | none => (.fault .useAfterFree, w)
      | some s =>
          if s.terminated then (.release, w)
          else (.remove a, w.update a fun s => { s with terminated := true })
  | .remove a => (.stop a, { w with preStart := w.preStart.erase a })
  | .stop a => (.join a, { w with stops := w.stops + 1 })
  | .join a =>
      match w.heap a with
      | none => (.fault .useAfterFree, w)
      | some s => (.release, if s.blocking then w else w.setThread a .joined)
  | .release => (.free w.handle, w)
  | .free a =>
      if a = 0 then (.clear, w) else
      match w.heap a with
      | none => (.fault .doubleFree, w)
      | some _ => (.clear, w.free a)
  | .clear => (.exit, { w with handle := 0 })
  | .exit => (.done, { w with handle := 0 })
  | .done => (.done, w)
  | .fault f => (.fault f, w)

/-- `n` threads in `jbr_shutdown` on one world. -/
structure Race (n : Nat) where
  world : World
  pc : Fin n → Pc

def Race.start (n : Nat) (w : World) : Race n := ⟨w, fun _ => .entry⟩

def Race.step {n : Nat} (r : Race n) (i : Fin n) : Race n :=
  ⟨(shutdownStep r.world (r.pc i)).2, Function.update r.pc i (shutdownStep r.world (r.pc i)).1⟩

def Race.run {n : Nat} (r : Race n) (sched : List (Fin n)) : Race n := sched.foldl Race.step r

@[simp] theorem Race.run_nil {n : Nat} (r : Race n) : r.run [] = r := rfl

@[simp] theorem Race.run_cons {n : Nat} (r : Race n) (i : Fin n) (sched : List (Fin n)) :
    r.run (i :: sched) = (r.step i).run sched := rfl

/-! ## A caller alone -/

/-- A caller alone runs `jbr_shutdown` to its end as `jbrShutdown` says, when `*pjbr`
is `NULL` or names an allocated supervisor. -/
theorem run_alone (w : World) (hw : w.handle = 0 ∨ w.heap w.handle ≠ none) :
    ((Race.start 1 w).run (List.replicate 10 0)).world = jbrShutdown w ∧
      ((Race.start 1 w).run (List.replicate 10 0)).pc 0 = .done := by
  by_cases h0 : w.handle = 0
  · simp [Race.start, Race.step, shutdownStep, h0, jbrShutdown_of_null h0, List.replicate]
  obtain ⟨s, hs⟩ := Option.ne_none_iff_exists'.mp (hw.resolve_left h0)
  cases ht : s.terminated <;> cases hb : s.blocking <;>
    simp [Race.start, Race.step, shutdownStep, jbrShutdown, h0, hs, ht, hb, List.replicate]

theorem run_alone_started :
    ((jbrStart true ⟨none, false, false⟩ ⟨true, true, true, true⟩ World.init).2.handle = 0 ∨
      (jbrStart true ⟨none, false, false⟩ ⟨true, true, true, true⟩ World.init).2.heap
        (jbrStart true ⟨none, false, false⟩ ⟨true, true, true, true⟩ World.init).2.handle ≠ none) ∧
    ((Race.start 1 (jbrStart true ⟨none, false, false⟩ ⟨true, true, true, true⟩ World.init).2).run
        (List.replicate 10 0)).world =
      jbrShutdown (jbrStart true ⟨none, false, false⟩ ⟨true, true, true, true⟩ World.init).2 ∧
    ((Race.start 1 (jbrStart true ⟨none, false, false⟩ ⟨true, true, true, true⟩ World.init).2).run
        (List.replicate 10 0)).pc 0 = .done :=
  ⟨.inr (by decide), run_alone _ (.inr (by decide))⟩

/-! ## Any number of callers -/

def Pc.winning : Pc → Bool
  | .remove _ | .stop _ => true
  | _ => false

def Unstopped (a : Nat) (w : World) : Prop :=
  a ≠ 0 ∧ ∃ s, w.heap a = some s ∧ s.terminated = false

/-- What holds along every interleaving of callers that started on `w`. -/
structure Race.Inv {n : Nat} (w : World) (r : Race n) : Prop where
  handle : r.world.handle = w.handle ∨ r.world.handle = 0
  cas : ∀ i b, r.pc i = .cas b → b = w.handle ∨ b = 0
  one : ∀ i j, (r.pc i).winning → (r.pc j).winning → i = j
  stops : r.world.stops ≤ w.stops + 1
  stopped : r.world.stops = w.stops + 1 → ∀ i, (r.pc i).winning = false
  unstopped : Unstopped w.handle r.world → r.world.stops = w.stops ∧ ∀ i, (r.pc i).winning = false

section Steps

variable {w : World} {n : Nat} {r : Race n}

theorem Race.Inv.quiet (hr : r.Inv w) (i : Fin n) {pc : Pc} {w' : World}
    (hh : w'.handle = r.world.handle ∨ w'.handle = 0) (hs : w'.stops = r.world.stops)
    (hu : Unstopped w.handle w' → Unstopped w.handle r.world) (hw : pc.winning = false)
    (hc : ∀ b, pc = .cas b → b = w.handle ∨ b = 0) :
    Race.Inv w ⟨w', Function.update r.pc i pc⟩ where
  handle := hh.elim (fun h => h ▸ hr.handle) .inr
  cas j b h := by
    by_cases hj : j = i
    · subst hj
      simp only [Function.update_same] at h
      exact hc b h
    · simp only [Function.update_noteq hj] at h
      exact hr.cas j b h
  one j k hj hk := by
    by_cases hji : j = i
    · subst hji; simp [hw] at hj
    by_cases hki : k = i
    · subst hki; simp [hw] at hk
    simp only [Function.update_noteq hji, Function.update_noteq hki] at hj hk
    exact hr.one j k hj hk
  stops := hs ▸ hr.stops
  stopped h j := by
    by_cases hj : j = i
    · subst hj; simpa using hw
    · simpa [Function.update_noteq hj] using hr.stopped (hs ▸ h) j
  unstopped h := by
    obtain ⟨h1, h2⟩ := hr.unstopped (hu h)
    refine ⟨hs ▸ h1, fun j => ?_⟩
    by_cases hj : j = i
    · subst hj; simpa using hw
    · simpa [Function.update_noteq hj] using h2 j

theorem Race.Inv.keep (hr : r.Inv w) (i : Fin n) {pc : Pc} (hw : pc.winning = false)
    (hc : ∀ b, pc = .cas b → b = w.handle ∨ b = 0) : Race.Inv w ⟨r.world, Function.update r.pc i pc⟩ :=
  hr.quiet i (.inl rfl) rfl id hw hc

theorem Race.Inv.remove (hr : r.Inv w) (i : Fin n) {b : Nat} (hpc : r.pc i = .remove b) :
    Race.Inv w ⟨{ r.world with preStart := r.world.preStart.erase b },
      Function.update r.pc i (.stop b)⟩ := by
  have hwin : (r.pc i).winning := by rw [hpc]; rfl
  have hsame : ∀ j, (Function.update r.pc i (.stop b) j).winning = (r.pc j).winning := fun j => by
    by_cases hj : j = i
    · subst hj; rw [Function.update_same, hpc]; rfl
    · rw [Function.update_noteq hj]
  refine ⟨hr.handle, fun j c h => ?_, fun j k => ?_, hr.stops, fun h => ?_, fun h => ?_⟩
  · by_cases hj : j = i
    · subst hj; simp at h
    · simp only [Function.update_noteq hj] at h; exact hr.cas j c h
  · rw [hsame, hsame]; exact hr.one j k
  · exact absurd (hr.stopped h i) (by simp [hwin])
  · exact absurd ((hr.unstopped h).2 i) (by simp [hwin])

theorem Race.Inv.stop (hr : r.Inv w) (i : Fin n) {b : Nat} (hpc : r.pc i = .stop b) :
    Race.Inv w ⟨{ r.world with stops := r.world.stops + 1 }, Function.update r.pc i (.join b)⟩ := by
  have hwin : (r.pc i).winning := by rw [hpc]; rfl
  have hlt : r.world.stops ≠ w.stops + 1 := fun h => absurd (hr.stopped h i) (by simp [hwin])
  have hout : ∀ j, (Function.update r.pc i (.join b) j).winning = false := fun j => by
    by_cases hj : j = i
    · subst hj; rw [Function.update_same]; rfl
    · rw [Function.update_noteq hj]
      cases hw : (r.pc j).winning
      · rfl
      · exact absurd (hr.one j i hw hwin) hj
  refine ⟨hr.handle, fun j c h => ?_, fun j k hj => by simp [hout] at hj, ?_, fun _ => hout,
    fun h => absurd ((hr.unstopped h).2 i) (by simp [hwin])⟩
  · by_cases hj : j = i
    · subst hj; simp at h
    · simp only [Function.update_noteq hj] at h; exact hr.cas j c h
  · have := hr.stops
    dsimp only
    omega

theorem Race.Inv.win (hr : r.Inv w) (i : Fin n) {b : Nat} (hpc : r.pc i = .cas b) (hb : b ≠ 0)
    {s : Supervisor} (hs : r.world.heap b = some s) (ht : s.terminated = false) :
    Race.Inv w ⟨r.world.update b (fun s => { s with terminated := true }),
      Function.update r.pc i (.remove b)⟩ := by
  have hba : b = w.handle := (hr.cas i b hpc).resolve_right hb
  obtain ⟨hst, hnone⟩ := hr.unstopped ⟨hba ▸ hb, s, hba ▸ hs, ht⟩
  refine ⟨hr.handle, fun j c h => ?_, fun j k hj hk => ?_, hst ▸ Nat.le_succ _,
    fun h => absurd (hst ▸ h : w.stops = w.stops + 1) (Nat.succ_ne_self _).symm, fun h => ?_⟩
  · by_cases hj : j = i
    · subst hj; simp at h
    · simp only [Function.update_noteq hj] at h; exact hr.cas j c h
  · by_cases hji : j = i
    · by_cases hki : k = i
      · rw [hji, hki]
      · simp only [Function.update_noteq hki, hnone k, Bool.false_eq_true] at hk
    · simp only [Function.update_noteq hji, hnone j, Bool.false_eq_true] at hj
  · obtain ⟨-, s', hs', ht'⟩ := h
    rw [← hba] at hs'
    simp [hs] at hs'
    rw [← hs'] at ht'
    cases ht'

theorem Race.Inv.step (hr : r.Inv w) (i : Fin n) : (r.step i).Inv w := by
  unfold Race.step
  generalize hpc : r.pc i = pc
  cases pc with
  | entry => refine hr.keep i ?_ ?_ <;> simp only [shutdownStep] <;> split <;> simp [Pc.winning]
  | load => exact hr.keep i rfl fun b h => by cases h; exact hr.handle
  | cas b =>
      simp only [shutdownStep]
      split_ifs with hb
      · exact hr.keep i rfl (by simp)
      split
      · exact hr.keep i rfl (by simp)
      · rename_i s hs
        split_ifs with ht
        · exact hr.keep i rfl (by simp)
        · exact hr.win i hpc hb hs (by simpa using ht)
  | remove b => exact hr.remove i hpc
  | stop b => exact hr.stop i hpc
  | join b =>
      simp only [shutdownStep]
      split
      · exact hr.keep i rfl (by simp)
      · split_ifs
        · exact hr.keep i rfl (by simp)
        · exact hr.quiet i (.inl rfl) rfl id rfl (by simp)
  | release => exact hr.keep i rfl (by simp [shutdownStep])
  | free b =>
      simp only [shutdownStep]
      split_ifs with hb
      · exact hr.keep i rfl (by simp)
      split
      · exact hr.keep i rfl (by simp)
      · -- a `free` cannot make the compare-and-swap on `*pjbr` succeed again
        refine hr.quiet i (.inl rfl) rfl (fun ⟨ha, s, hs, ht⟩ => ⟨ha, s, ?_, ht⟩) rfl (by simp)
        by_cases hab : w.handle = b
        · subst hab; simp at hs
        · simpa [Function.update_noteq hab] using hs
  | clear => exact hr.quiet i (.inr rfl) rfl id rfl (by simp [shutdownStep])
  | exit => exact hr.quiet i (.inr rfl) rfl id rfl (by simp [shutdownStep])
  | done => exact hr.keep i rfl (by simp [shutdownStep])
  | fault f => exact hr.keep i rfl (by simp [shutdownStep])

theorem Race.Inv.run (hr : r.Inv w) (sched : List (Fin n)) : (r.run sched).Inv w := by
  induction sched generalizing r with
  | nil => exact hr
  | cons i sched ih => exact ih (hr.step i)

end Steps

/-- Two callers on a supervisor that has not been stopped: in one interleaving the
second frees it again after the first freed it, in another the winner of the
compare-and-swap reads `jbr->http` after the loser freed the supervisor, and in a
third one caller passes `if (!*pjbr)` and then loads the `NULL` the other left. -/
theorem shutdown_race (w : World) (h0 : w.handle ≠ 0) {s : Supervisor}
    (hs : w.heap w.handle = some s) (ht : s.terminated = false) :
    (∃ sched, ((Race.start 2 w).run sched).pc 1 = .fault .doubleFree) ∧
    (∃ sched, ((Race.start 2 w).run sched).pc 0 = .fault .useAfterFree) ∧
    (∃ sched, ((Race.start 2 w).run sched).pc 0 = .fault .nullDeref) := by
  refine ⟨⟨[0, 1, 0, 1, 0, 1, 0, 0, 0, 0, 1, 0, 1], ?_⟩, ⟨[0, 1, 0, 1, 0, 1, 1, 1, 0, 0, 0], ?_⟩,
    ⟨[0, 1, 1, 1, 1, 1, 1, 1, 1, 1, 1, 0, 0], ?_⟩⟩ <;>
  cases hb : s.blocking <;> simp [Race.start, Race.step, shutdownStep, h0, hs, ht, hb, Function.update_apply]

example :
    (jbrStart true ⟨none, false, false⟩ ⟨true, true, true, true⟩ World.init).2.handle ≠ 0 ∧
    (jbrStart true ⟨none, false, false⟩ ⟨true, true, true, true⟩ World.init).2.heap
        (jbrStart true ⟨none, false, false⟩ ⟨true, true, true, true⟩ World.init).2.handle =
      some ⟨false, .ok, false⟩ ∧
    ((∃ sched, ((Race.start 2 (jbrStart true ⟨none, false, false⟩ ⟨true, true, true, true⟩
        World.init).2).run sched).pc 1 = .fault .doubleFree) ∧
      (∃ sched, ((Race.start 2 (jbrStart true ⟨none, false, false⟩ ⟨true, true, true, true⟩
        World.init).2).run sched).pc 0 = .fault .useAfterFree) ∧
      (∃ sched, ((Race.start 2 (jbrStart true ⟨none, false, false⟩ ⟨true, true, true, true⟩
        World.init).2).run sched).pc 0 = .fault .nullDeref)) :=
  ⟨by decide, rfl, shutdown_race _ (by decide) rfl rfl⟩

end Jbr.Lifecycle
