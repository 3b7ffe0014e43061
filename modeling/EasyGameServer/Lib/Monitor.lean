/-
  EasyGameServer.Lib.Monitor

  Monitors with condition variables.  A call takes the lock and makes a turn:
  it sleeps on its condition, or it leaves without a change, or it changes the
  shared state, releases the lock and then wakes one sleeper of another
  condition.  A sleeper that is woken, or wakes spuriously, takes the lock and
  makes its turn again.  The lock makes a turn atomic; between the turns any
  number of threads interleave in any way.

  Two rules.  The turns that ended a call form a history, and when each of them
  is allowed by a sequential spec, so is the whole history.  And when each turn
  uses up a unit of what its caller waits for and supplies one of what it
  signals, no wake-up is lost.
-/

import EasyGameServer.Lib.Lts
import EasyGameServer.Lib.Refine
import Mathlib.Algebra.BigOperators.Group.Finset.Piecewise
import Mathlib.Algebra.Order.BigOperators.Group.Finset
import Mathlib.Data.Fintype.Basic

namespace EasyGameServer.Lib

/-! ## Counting threads -/

section Census

variable {T P : Type _} [Fintype T] [DecidableEq T]

/-- The threads counted by where they are, each place with its weight. -/
def census (place : T → P) (weight : P → Nat) : Nat := ∑ t, weight (place t)

/-- When one thread moves, only its own count changes. -/
theorem census_update (place : T → P) (weight : P → Nat) (t : T) (p : P) :
    census (Function.update place t p) weight + weight (place t)
      = census place weight + weight p := by
  have hcounts : (fun u => weight (Function.update place t p u))
      = Function.update (fun u => weight (place u)) t (weight p) := by
    funext u
    by_cases hu : u = t
    · rw [hu, Function.update_self, Function.update_self]
    · rw [Function.update_of_ne hu, Function.update_of_ne hu]
  have hsplit := Finset.add_sum_erase Finset.univ (fun u => weight (place u))
    (Finset.mem_univ t)
  unfold census
  rw [hcounts, Finset.sum_update_of_mem (Finset.mem_univ t), Finset.sdiff_singleton_eq_erase]
  omega

omit [DecidableEq T] in
theorem census_pos_iff (place : T → P) (weight : P → Nat) :
    0 < census place weight ↔ ∃ t, 0 < weight (place t) := by
  unfold census
  rw [Finset.sum_pos_iff]
  simp only [Finset.mem_univ, true_and]

end Census

/-! ## Monitors -/

/-- What a turn in the critical section ends with. -/
inductive Turn (σ A : Type _) where
  /-- Release the lock and sleep on the condition. -/
  | sleep
  /-- Release the lock and return. -/
  | leave (answer : A)
  /-- Release the lock on a changed state, wake a sleeper and return. -/
  | pass (answer : A) (shared : σ)

/-- The calls `C`, what a turn of each does, the condition it sleeps on and the
    one it wakes. -/
structure Monitor (σ C A K : Type _) where
  turn : σ → C → Turn σ A
  waitsOn : C → K
  wakes : C → K

/-- Where a thread is. -/
inductive Place (C A : Type _) where
  /-- In no call; what the last one returned. -/
  | outside (returned : Option A)
  /-- Has called, and has yet to take the lock. -/
  | entering (c : C)
  | sleeping (c : C)
  /-- Awake, and has yet to take the lock again. -/
  | woken (c : C)
  /-- Has released the lock, and has yet to wake a sleeper. -/
  | waking (c : C) (answer : A)

/-- The shared state, the threads, and the turns that ended a call, oldest first. -/
structure Threads (T σ C A : Type _) where
  shared : σ
  place : T → Place C A
  history : List (C × A)

/-- What happens next.  `wake` names the sleeper that is woken, if there is one. -/
inductive Event (T C : Type _) where
  | call (t : T) (c : C)
  | enter (t : T)
  | wake (t : T) (sleeper : Option T)
  | spurious (t : T)

variable {T σ C A K : Type _}

/-- The call this thread is about to take the lock for. -/
def Place.atLock : Place C A → Option C
  | .entering c => some c
  | .woken c => some c
  | _ => none

def Place.asleep : Place C A → Option C
  | .sleeping c => some c
  | _ => none

namespace Threads

/-- Nobody has called yet. -/
def start (shared : σ) : Threads T σ C A where
  shared := shared
  place := fun _ => .outside none
  history := []

variable [DecidableEq T]

def move (s : Threads T σ C A) (t : T) (p : Place C A) : Threads T σ C A :=
  { s with place := Function.update s.place t p }

@[simp] theorem move_self (s : Threads T σ C A) (t : T) (p : Place C A) :
    (s.move t p).place t = p := Function.update_self ..

theorem move_of_ne (s : Threads T σ C A) (p : Place C A) {t u : T} (h : u ≠ t) :
    (s.move t p).place u = s.place u := Function.update_of_ne h ..

/-- Thread `t` takes the lock for `c` and makes its turn. -/
def enter (m : Monitor σ C A K) (s : Threads T σ C A) (t : T) (c : C) : Threads T σ C A :=
  match m.turn s.shared c with
  | .sleep => s.move t (.sleeping c)
  | .leave answer =>
      { s.move t (.outside (some answer)) with history := s.history ++ [(c, answer)] }
  | .pass answer shared =>
      { s.move t (.waking c answer) with
        shared := shared
        history := s.history ++ [(c, answer)] }

end Threads

namespace Monitor

/-- Does this thread sleep on `k`? -/
def sleepsOn [DecidableEq K] (m : Monitor σ C A K) (k : K) : Place C A → Bool
  | .sleeping c => m.waitsOn c = k
  | _ => false

variable [Fintype T] [DecidableEq T] [DecidableEq K] (m : Monitor σ C A K)

def step (s : Threads T σ C A) : Event T C → Option (Threads T σ C A)
  | .call t c =>
      match s.place t with
      | .outside _ => some (s.move t (.entering c))
      | _ => none
  | .enter t => (s.place t).atLock.map (s.enter m t)
  | .wake t sleeper =>
      match s.place t, sleeper with
      | .waking c answer, none =>
          if ∀ u, m.sleepsOn (m.wakes c) (s.place u) = false
            then some (s.move t (.outside (some answer))) else none
      | .waking c answer, some u =>
          match s.place u with
          | .sleeping d =>
              if m.waitsOn d = m.wakes c
                then some ((s.move u (.woken d)).move t (.outside (some answer))) else none
          | _ => none
      | _, _ => none
  | .spurious t => (s.place t).asleep.map (fun c => s.move t (.woken c))

def system (T : Type _) [Fintype T] [DecidableEq T] (shared : σ) :
    System (Threads T σ C A) (Event T C) where
  init s := s = .start shared
  step := m.step

variable {m}

/-! ## What a step does -/

/-- The steps, one for each outcome. -/
inductive Moves (m : Monitor σ C A K) (s : Threads T σ C A) : Threads T σ C A → Prop
  | call {t : T} {c : C} {returned : Option A} (ht : s.place t = .outside returned) :
      Moves m s (s.move t (.entering c))
  | sleep {t : T} {c : C} (ht : (s.place t).atLock = some c)
      (hturn : m.turn s.shared c = .sleep) : Moves m s (s.move t (.sleeping c))
  | leave {t : T} {c : C} {answer : A} (ht : (s.place t).atLock = some c)
      (hturn : m.turn s.shared c = .leave answer) :
      Moves m s { s.move t (.outside (some answer)) with history := s.history ++ [(c, answer)] }
  | pass {t : T} {c : C} {answer : A} {shared : σ} (ht : (s.place t).atLock = some c)
      (hturn : m.turn s.shared c = .pass answer shared) :
      Moves m s { s.move t (.waking c answer) with
        shared := shared
        history := s.history ++ [(c, answer)] }
  | wakeNobody {t : T} {c : C} {answer : A} (ht : s.place t = .waking c answer)
      (hnobody : ∀ u, m.sleepsOn (m.wakes c) (s.place u) = false) :
      Moves m s (s.move t (.outside (some answer)))
  | wakeOne {t u : T} {c d : C} {answer : A} (ht : s.place t = .waking c answer)
      (hu : s.place u = .sleeping d) (hk : m.waitsOn d = m.wakes c) :
      Moves m s ((s.move u (.woken d)).move t (.outside (some answer)))
  | spurious {t : T} {c : C} (ht : (s.place t).asleep = some c) :
      Moves m s (s.move t (.woken c))

theorem moves_of_step {s s' : Threads T σ C A} {e : Event T C} (h : m.step s e = some s') :
    m.Moves s s' := by
  cases e with
  | call t c =>
      simp only [step] at h
      split at h
      next ht =>
        cases h
        exact .call ht
      next => cases h
  | enter t =>
      obtain ⟨c, ht, rfl⟩ := Option.map_eq_some_iff.mp h
      unfold Threads.enter
      cases hturn : m.turn s.shared c with
      | sleep => exact .sleep ht hturn
      | leave answer => exact .leave ht hturn
      | pass answer shared => exact .pass ht hturn
  | wake t sleeper =>
      simp only [step] at h
      split at h
      next ht =>
        split at h
        next hnobody =>
          cases h
          exact .wakeNobody ht hnobody
        next => cases h
      next ht =>
        split at h
        next hu =>
          split at h
          next hk =>
            cases h
            exact .wakeOne ht hu hk
          next => cases h
        next => cases h
      next => cases h
  | spurious t =>
      obtain ⟨c, ht, rfl⟩ := Option.map_eq_some_iff.mp h
      exact .spurious ht

/-! ## The turns one after the other -/

omit [DecidableEq K] in
/-- The calls as operations of one sequential object; a caller that has to
    sleep is refused. -/
def object (m : Monitor σ C A K) : Object σ C A where
  step x c :=
    match m.turn x c with
    | .sleep => none
    | .leave answer => some (answer, x)
    | .pass answer shared => some (answer, shared)

omit [DecidableEq K] in
theorem object_leave {x : σ} {c : C} {answer : A} (h : m.turn x c = .leave answer) :
    m.object.step x c = some (answer, x) := by
  simp only [object, h]

omit [DecidableEq K] in
theorem object_pass {x y : σ} {c : C} {answer : A} (h : m.turn x c = .pass answer y) :
    m.object.step x c = some (answer, y) := by
  simp only [object, h]

/-- However the threads interleave, the turns that ended a call are a run of
    the sequential object. -/
theorem history_run {shared : σ} {s : Threads T σ C A} (hr : (m.system T shared).Reachable s) :
    m.object.run shared (s.history.map Prod.fst) = some (s.history.map Prod.snd, s.shared) := by
  induction hr with
  | init hi =>
      cases hi
      rfl
  | step _ _ hs ih =>
      cases moves_of_step hs with
      | leave ht hturn =>
          rw [List.map_append, List.map_append]
          exact Object.run_snoc ih (object_leave hturn)
      | pass ht hturn =>
          rw [List.map_append, List.map_append]
          exact Object.run_snoc ih (object_pass hturn)
      | _ => exact ih

/-! ## How a thread came to its place -/

omit [DecidableEq K] in
/-- A sleeper found a turn that made it sleep; a thread about to wake another
    found one that changed the state. -/
def Earned (m : Monitor σ C A K) : Place C A → Prop
  | .sleeping c => ∃ x, m.turn x c = .sleep
  | .woken c => ∃ x, m.turn x c = .sleep
  | .waking c answer => ∃ x y, m.turn x c = .pass answer y
  | _ => True

theorem earned_of_reachable {shared : σ} {s : Threads T σ C A}
    (hr : (m.system T shared).Reachable s) (t : T) : m.Earned (s.place t) := by
  have hmove : ∀ {s : Threads T σ C A} {u : T} {p : Place C A},
      (∀ t, m.Earned (s.place t)) → m.Earned p → ∀ t, m.Earned ((s.move u p).place t) := by
    intro s u p hall hp t
    by_cases ht : t = u
    · rw [ht, Threads.move_self]
      exact hp
    · rw [Threads.move_of_ne _ _ ht]
      exact hall t
  have hinv : (m.system T shared).IsInvariant System.always
      (fun s => ∀ t, m.Earned (s.place t)) := by
    constructor
    · rintro s rfl t
      trivial
    · intro s e s' _ hall _ hs
      cases moves_of_step hs with
      | call ht => exact hmove hall trivial
      | sleep ht hturn => exact hmove hall ⟨_, hturn⟩
      | leave ht hturn => exact hmove hall trivial
      | pass ht hturn => exact hmove hall ⟨_, _, hturn⟩
      | wakeNobody ht hnobody => exact hmove hall trivial
      | @wakeOne t u c d answer ht hu hk =>
          have hslept := hall u
          rw [hu] at hslept
          exact hmove (hmove hall hslept) trivial
      | @spurious t c ht =>
          apply hmove hall
          have hslept := hall t
          cases hp : s.place t with
          | sleeping d =>
              rw [hp] at ht hslept
              cases ht
              exact hslept
          | _ =>
              rw [hp] at ht
              cases ht
  exact hinv.holds hr t

omit [Fintype T] in
/-- A call returns by a turn that leaves, or after it has woken another. -/
theorem returns_cases {s s' : Threads T σ C A} (h : m.Moves s s') {t : T} {answer : A}
    (hafter : s'.place t = .outside (some answer))
    (hbefore : s.place t ≠ .outside (some answer)) :
    (∃ c, (s.place t).atLock = some c ∧ m.turn s.shared c = .leave answer ∧
      s' = { s.move t (.outside (some answer)) with history := s.history ++ [(c, answer)] }) ∨
    ∃ c, s.place t = .waking c answer := by
  have hmover : ∀ {u : T} {p : Place C A},
      (s.move u p).place t = .outside (some answer) → u = t ∧ p = .outside (some answer) := by
    intro u p hp
    by_cases hut : t = u
    · rw [hut, Threads.move_self] at hp
      exact ⟨hut.symm, hp⟩
    · rw [Threads.move_of_ne _ _ hut] at hp
      exact absurd hp hbefore
  cases h with
  | call ht => cases (hmover hafter).2
  | sleep ht hturn => cases (hmover hafter).2
  | leave ht hturn =>
      obtain ⟨rfl, hp⟩ := hmover hafter
      cases hp
      exact .inl ⟨_, ht, hturn, rfl⟩
  | pass ht hturn => cases (hmover hafter).2
  | wakeNobody ht hnobody =>
      obtain ⟨rfl, hp⟩ := hmover hafter
      cases hp
      exact .inr ⟨_, ht⟩
  | @wakeOne v u c d answer' ht hu hk =>
      by_cases hvt : t = v
      · rw [hvt, Threads.move_self] at hafter
        cases hafter
        exact .inr ⟨_, hvt ▸ ht⟩
      · rw [Threads.move_of_ne _ _ hvt] at hafter
        cases (hmover hafter).2
  | spurious ht => cases (hmover hafter).2

/-! ## No lost wake-up -/

/-- A caller sleeps or leaves only when there is no unit of what it waits for,
    and a turn that changes the state uses up one of these and supplies at most
    one of what it signals. -/
structure Paced (m : Monitor σ C A K) (I : σ → Prop) (units : σ → K → Nat) : Prop where
  sleep : ∀ x c, I x → m.turn x c = .sleep → units x (m.waitsOn c) = 0
  leave : ∀ x c answer, I x → m.turn x c = .leave answer → units x (m.waitsOn c) = 0
  pass : ∀ x c answer y, I x → m.turn x c = .pass answer y →
    ∀ k, units y k + (decide (m.waitsOn c = k)).toNat
      ≤ units x k + (decide (m.wakes c = k)).toNat

/-- Does this thread sleep on `k`?  As a count. -/
def sleeper (m : Monitor σ C A K) (k : K) (p : Place C A) : Nat := (m.sleepsOn k p).toNat

/-- Will this thread wake a sleeper of `k`, or check for `k` again? -/
def looksAfter (m : Monitor σ C A K) (k : K) : Place C A → Nat
  | .waking c _ => (decide (m.wakes c = k)).toNat
  | .woken c => (decide (m.waitsOn c = k)).toNat
  | _ => 0

/-- As long as somebody sleeps on `k`, every unit has a thread that is about to
    wake a sleeper for it, or is awake to take it. -/
def Covered (m : Monitor σ C A K) (units : σ → K → Nat) (s : Threads T σ C A) (k : K) : Prop :=
  0 < census s.place (m.sleeper k) → units s.shared k ≤ census s.place (m.looksAfter k)

/-- A thread at the lock looks after at most what its call waits for. -/
theorem looksAfter_atLock {p : Place C A} {c : C} (h : p.atLock = some c) (k : K) :
    m.looksAfter k p ≤ (decide (m.waitsOn c = k)).toNat := by
  cases p with
  | entering d => exact Nat.zero_le _
  | woken d =>
      cases h
      exact Nat.le_refl _
  | _ => cases h

/-- One thread moves: it did not fall asleep on `k`, and looks after every unit
    that was added. -/
theorem Covered.move {units : σ → K → Nat} {s : Threads T σ C A} {k : K}
    (hc : m.Covered units s k) {t : T} {p : Place C A} {y : σ} {history : List (C × A)}
    (hfalls : m.sleeper k p ≤ m.sleeper k (s.place t))
    (hlooks : units y k + m.looksAfter k (s.place t) ≤ units s.shared k + m.looksAfter k p) :
    m.Covered units { s.move t p with shared := y, history := history } k := by
  intro hasleep
  have hsleeps := census_update s.place (m.sleeper k) t p
  have hlooked := census_update s.place (m.looksAfter k) t p
  simp only [Threads.move] at hasleep ⊢
  have hold := hc (by omega)
  omega

/-- A thread that finds no unit of what it waits for gives up looking. -/
theorem Covered.giveUp {units : σ → K → Nat} {s : Threads T σ C A} {k : K}
    (hc : m.Covered units s k) {t : T} {c : C} (ht : (s.place t).atLock = some c)
    (hunits : units s.shared (m.waitsOn c) = 0) {p : Place C A}
    (hsleeps : m.waitsOn c ≠ k → m.sleeper k p = 0) {history : List (C × A)} :
    m.Covered units { s.move t p with history := history } k := by
  have hlooks := looksAfter_atLock (m := m) ht k
  by_cases hwaits : m.waitsOn c = k
  · intro _
    show units s.shared k ≤ _
    rw [← hwaits, hunits]
    exact Nat.zero_le _
  · have hasleep := hsleeps hwaits
    simp only [hwaits, decide_false, Bool.toNat_false] at hlooks
    apply hc.move (y := s.shared) <;> omega

/-- A sleeper that is woken takes over what the other thread looked after. -/
theorem Covered.wake {units : σ → K → Nat} {s : Threads T σ C A} {k : K}
    (hc : m.Covered units s k) {t u : T} {c d : C} {answer : A}
    (ht : s.place t = .waking c answer) (hu : s.place u = .sleeping d)
    (hwakes : m.waitsOn d = m.wakes c) :
    m.Covered units ((s.move u (.woken d)).move t (.outside (some answer))) k := by
  intro hasleep
  have hne : t ≠ u := by
    rintro rfl
    rw [ht] at hu
    cases hu
  have ht' : (s.move u (.woken d)).place t = .waking c answer := by
    rw [Threads.move_of_ne _ _ hne, ht]
  have hlooks₁ := census_update s.place (m.looksAfter k) u (.woken d)
  have hlooks₂ := census_update (s.move u (.woken d)).place (m.looksAfter k) t
    (.outside (some answer))
  have hsleeps₁ := census_update s.place (m.sleeper k) u (.woken d)
  have hsleeps₂ := census_update (s.move u (.woken d)).place (m.sleeper k) t
    (.outside (some answer))
  rw [hu] at hlooks₁ hsleeps₁
  rw [ht'] at hlooks₂ hsleeps₂
  simp only [Threads.move, looksAfter, sleeper, sleepsOn, hwakes, Bool.toNat_false] at *
  have hold := hc (by omega)
  omega

theorem covered_move {I : σ → Prop} {units : σ → K → Nat} (hp : m.Paced I units)
    {s s' : Threads T σ C A} (hI : I s.shared) {k : K} (hc : m.Covered units s k)
    (h : m.Moves s s') : m.Covered units s' k := by
  cases h with
  | @call t c returned ht =>
      apply hc.move
      · exact Nat.zero_le _
      · rw [ht]
        exact Nat.le_refl _
  | @sleep t c ht hturn =>
      apply hc.giveUp ht (hp.sleep _ _ hI hturn)
      intro hwaits
      simp [sleeper, sleepsOn, hwaits]
  | leave ht hturn => exact hc.giveUp ht (hp.leave _ _ _ hI hturn) (fun _ => rfl)
  | @pass t c answer y ht hturn =>
      have hunits := hp.pass _ _ _ _ hI hturn k
      have hlooks := looksAfter_atLock (m := m) ht k
      have hwill : m.looksAfter k (.waking c answer : Place C A)
          = (decide (m.wakes c = k)).toNat := rfl
      apply hc.move
      · exact Nat.zero_le _
      · omega
  | @wakeNobody t c answer ht hnobody =>
      by_cases hwakes : m.wakes c = k
      · -- whoever sleeps on `k` now slept on it before
        intro hasleep
        obtain ⟨u, hu⟩ := (census_pos_iff _ _).mp hasleep
        by_cases hut : u = t
        · rw [hut, Threads.move_self] at hu
          exact absurd hu (Nat.lt_irrefl 0)
        · have hnot := hnobody u
          rw [Threads.move_of_ne _ _ hut, sleeper, ← hwakes, hnot] at hu
          exact absurd hu (Nat.lt_irrefl 0)
      · apply hc.move
        · exact Nat.zero_le _
        · simp [ht, looksAfter, hwakes]
  | wakeOne ht hu hwakes => exact hc.wake ht hu hwakes
  | @spurious t c ht =>
      apply hc.move
      · exact Nat.zero_le _
      · have hsleeping : m.looksAfter k (s.place t) = 0 := by
          cases hp : s.place t with
          | sleeping d => rfl
          | _ =>
              rw [hp] at ht
              cases ht
        omega

/-- **No lost wake-up.**  When no thread is about to wake a sleeper and none is
    awake to check again, nobody sleeps on a condition that has a unit. -/
theorem no_lost_wakeup {I : σ → Prop} {units : σ → K → Nat} {shared : σ} (hp : m.Paced I units)
    (hstart : I shared)
    (hI : ∀ x c answer y, I x → m.turn x c = .pass answer y → I y)
    {s : Threads T σ C A} (hr : (m.system T shared).Reachable s)
    (hquiet : ∀ t k, m.looksAfter k (s.place t) = 0) {t : T} {c : C}
    (ht : s.place t = .sleeping c) : units s.shared (m.waitsOn c) = 0 := by
  have hinv : (m.system T shared).IsInvariant System.always
      (fun s => I s.shared ∧ ∀ k, m.Covered units s k) := by
    constructor
    · rintro s rfl
      refine ⟨hstart, fun k hasleep => ?_⟩
      obtain ⟨u, hu⟩ := (census_pos_iff _ _).mp hasleep
      exact absurd hu (Nat.lt_irrefl 0)
    · rintro s e s' - ⟨hIs, hc⟩ - hs
      have hmoves := moves_of_step hs
      refine ⟨?_, fun k => covered_move hp hIs (hc k) hmoves⟩
      cases hmoves with
      | pass ht hturn => exact hI _ _ _ _ hIs hturn
      | _ => exact hIs
  have hasleep : 0 < census s.place (m.sleeper (m.waitsOn c)) := by
    rw [census_pos_iff]
    refine ⟨t, ?_⟩
    simp [ht, sleeper, sleepsOn]
  have hcovered := (hinv.holds hr).2 (m.waitsOn c) hasleep
  have hnobody : census s.place (m.looksAfter (m.waitsOn c)) = 0 := by
    by_contra hne
    obtain ⟨u, hu⟩ := (census_pos_iff _ _).mp (Nat.pos_of_ne_zero hne)
    rw [hquiet u] at hu
    exact absurd hu (Nat.lt_irrefl 0)
  omega

end Monitor
end EasyGameServer.Lib
