import Mathlib.Data.List.Induction
import RpcBindings.Proofs.Dict
import RpcBindings.Watch.State

/-!
# Turns of deliveries

What an event can do to a watcher is said once, case by case. Three invariants follow for every order of events: one
delivery at most has its turn, one quiet period at most runs, and while paths are pending there is a period whose
delivery has yet to take them. From there a watcher can always come to rest: the delivery that has its turn can be
brought to its end, and the next one takes all that is pending.
-/

namespace RpcBindings.Watch

theorem run_concat (s : State) (events : List Event) (e : Event) : run s (events ++ [e]) = e.apply (run s events) := by
  rw [run, List.foldl_append]
  rfl

/-! ## One event -/

/-- Everything that an event can do. -/
inductive Effect (s : State) : Event → State → Prop where
  | schedule (path : Text) : Effect s (.schedule path) (s.schedule path)
  | expire {n : Nat} : s.periods[n]? = some .quiet →
      Effect s (.expire n) { s with periods := s.periods.set n .waiting }
  | enter {n : Nat} : s.periods[n]? = some .waiting → s.busy = false →
      Effect s (.enter n) { s with periods := s.periods.set n .entered, busy := true }
  | pass {n : Nat} : s.periods[n]? = some .entered → s.pending.isEmpty = true →
      Effect s (.take n) { s with periods := s.periods.set n .finished, busy := false }
  | take {n : Nat} : s.periods[n]? = some .entered → s.pending.isEmpty = false →
      Effect s (.take n)
        { s with
          pending := Dict.empty
          periods := s.periods.set n (.delivering ⟨s.pending.names, List.range s.callbacks.length⟩) }
  | hand {n callback : Nat} {changed : List Text} {rest : List Nat} (answer : Callback) (log : List Log.Entry) :
      s.periods[n]? = some (.delivering ⟨changed, callback :: rest⟩) →
      Effect s (.hand n answer)
        { s with
          periods := s.periods.set n (.delivering ⟨changed, rest⟩)
          handed := ⟨n, callback, changed⟩ :: s.handed
          log := log }
  | finish {n : Nat} {changed : List Text} (answer : Callback) : s.periods[n]? = some (.delivering ⟨changed, []⟩) →
      Effect s (.hand n answer) { s with periods := s.periods.set n .finished, busy := false }
  | register (callback : Callback) : Effect s (.register callback) (s.register callback)
  | none {e : Event} : (∀ path, e ≠ .schedule path) → (∀ n, e = .take n → s.periods[n]? ≠ some .entered) →
      (∀ callback, e ≠ .register callback) → Effect s e s

theorem effect_apply (s : State) (e : Event) : Effect s e (e.apply s) := by
  cases e with
  | schedule path => exact .schedule path
  | register callback => exact .register callback
  | expire n =>
    rw [Event.apply, State.expire]
    split
    next h => exact .expire h
    next => exact .none (by simp) (by simp) (by simp)
  | enter n =>
    rw [Event.apply, State.enter]
    split
    next h =>
      split
      next => exact .none (by simp) (by simp) (by simp)
      next hfree => exact .enter h (by simpa using hfree)
    next => exact .none (by simp) (by simp) (by simp)
  | take n =>
    rw [Event.apply, State.take]
    split
    next h =>
      split
      next hempty => exact .pass h hempty
      next hfilled => exact .take h (by simpa using hfilled)
    next hnot =>
      refine .none (by simp) (fun m hm hentered => ?_) (by simp)
      obtain rfl := Event.take.inj hm
      exact hnot hentered
  | hand n answer =>
    rw [Event.apply, State.hand.eq_def]
    split
    next h => exact .finish answer h
    next h => exact .hand answer _ h
    next => exact .none (by simp) (by simp) (by simp)

theorem getElem?_set_found {periods : List Period} {n : Nat} {p q : Period} (h : periods[n]? = some p) (m : Nat) :
    (periods.set n q)[m]? = if m = n then some q else periods[m]? := by
  obtain ⟨hlt, -⟩ := List.getElem?_eq_some_iff.mp h
  rw [List.getElem?_set]
  by_cases hm : m = n
  · rw [if_pos hm.symm, if_pos hlt, if_pos hm]
  · rw [if_neg (Ne.symm hm), if_neg hm]

/-! ## Turns -/

namespace Period

def hasTurn : Period → Bool
  | entered => true
  | delivering _ => true
  | _ => false

def awaits : Period → Bool
  | quiet => true
  | waiting => true
  | entered => true
  | _ => false

theorem hasTurn_stop (p : Period) : p.stop.hasTurn = p.hasTurn := by cases p <;> rfl

theorem stop_ne_quiet (p : Period) : p.stop ≠ .quiet := by cases p <;> simp [stop]

end Period

/-- The lock is taken exactly if some delivery has its turn, and then a single one has it. -/
def OneTurn (busy : Bool) (periods : List Period) : Prop :=
  ∃ holder : Option Nat, busy = holder.isSome ∧ ∀ n, periods[n]?.any Period.hasTurn = true ↔ holder = some n

def Awake (pending : NameSet) (periods : List Period) : Prop :=
  pending.isEmpty = false → ∃ (n : Nat) (p : Period), periods[n]? = some p ∧ p.awaits = true

def OneTimer (timer : Option Nat) (periods : List Period) : Prop :=
  ∀ n : Nat, periods[n]? = some Period.quiet → timer = some n

section

variable {s : State} {busy : Bool} {pending : NameSet} {timer : Option Nat} {periods : List Period} {n : Nat}
  {p q : Period}

theorem OneTurn.keep (h : OneTurn busy periods) (hp : periods[n]? = some p) (hq : q.hasTurn = p.hasTurn) :
    OneTurn busy (periods.set n q) := by
  obtain ⟨holder, hbusy, hturn⟩ := h
  refine ⟨holder, hbusy, fun m => ?_⟩
  rw [getElem?_set_found hp, ← hturn m]
  split
  next hm => rw [hm, hp, Option.any_some, Option.any_some, hq]
  next => exact Iff.rfl

theorem OneTurn.gain (h : OneTurn false periods) (hp : periods[n]? = some p) (hq : q.hasTurn = true) :
    OneTurn true (periods.set n q) := by
  obtain ⟨holder, hbusy, hturn⟩ := h
  obtain rfl : holder = none := by simpa using hbusy.symm
  refine ⟨some n, rfl, fun m => ?_⟩
  rw [getElem?_set_found hp]
  split
  next hm => simp [hm, hq]
  next hm => simp [hturn, Ne.symm hm]

theorem OneTurn.release (h : OneTurn busy periods) (hp : periods[n]? = some p) (hturn : p.hasTurn = true)
    (hq : q.hasTurn = false) : OneTurn false (periods.set n q) := by
  obtain ⟨holder, -, hholder⟩ := h
  have hself : holder = some n := (hholder n).mp (by rw [hp, Option.any_some, hturn])
  refine ⟨none, rfl, fun m => ?_⟩
  rw [getElem?_set_found hp]
  split
  next => simp [hq]
  next hm => simp [hholder, hself, Ne.symm hm]

theorem Awake.keep (h : Awake pending periods) (hp : periods[n]? = some p) (hq : p.awaits = true → q.awaits = true) :
    Awake pending (periods.set n q) := by
  intro hfilled
  obtain ⟨m, r, hr, hawaits⟩ := h hfilled
  by_cases hm : m = n
  · subst hm
    obtain rfl := Option.some.inj (hp.symm.trans hr)
    exact ⟨m, q, by rw [getElem?_set_found hp, if_pos rfl], hq hawaits⟩
  · exact ⟨m, r, by rw [getElem?_set_found hp, if_neg hm, hr], hawaits⟩

theorem OneTimer.keep (h : OneTimer timer periods) (hp : periods[n]? = some p) (hq : q ≠ .quiet) :
    OneTimer timer (periods.set n q) := by
  intro m hm
  rw [getElem?_set_found hp] at hm
  split at hm
  next => exact absurd (Option.some.inj hm) hq
  next => exact h m hm

/-! ## A new period -/

theorem length_stopped (s : State) : s.stopped.length = s.periods.length := by
  unfold State.stopped
  cases s.timer <;> simp

theorem stopped_getElem? (s : State) (m : Nat) :
    s.stopped[m]? = if s.timer = some m then s.periods[m]?.map Period.stop else s.periods[m]? := by
  unfold State.stopped
  cases s.timer with
  | none => rfl
  | some n =>
    simp only [List.getElem?_modify, Option.some.injEq]
    split
    next => rfl
    next => simp

theorem scheduled_getElem? (s : State) (m : Nat) : (s.stopped ++ [.quiet])[m]? =
    if m = s.periods.length then some .quiet
    else if s.timer = some m then s.periods[m]?.map Period.stop else s.periods[m]? := by
  rw [List.getElem?_append, length_stopped, stopped_getElem?]
  rcases Nat.lt_trichotomy m s.periods.length with hlt | rfl | hgt
  · rw [if_pos hlt, if_neg (Nat.ne_of_lt hlt)]
  · simp
  · have hbehind : ([.quiet] : List Period)[m - s.periods.length]? = none :=
      List.getElem?_eq_none (by rw [List.length_singleton]; omega)
    have hnone : s.periods[m]? = none := List.getElem?_eq_none (by omega)
    rw [if_neg (by omega), if_neg (by omega), hbehind, hnone, Option.map_none, ite_self]

theorem OneTurn.schedule (h : OneTurn busy s.periods) : OneTurn busy (s.stopped ++ [.quiet]) := by
  obtain ⟨holder, hbusy, hturn⟩ := h
  refine ⟨holder, hbusy, fun m => ?_⟩
  rw [← hturn m, scheduled_getElem?]
  split
  next hm => simp [hm, Period.hasTurn]
  next =>
    split
    next => cases s.periods[m]? <;> simp [Period.hasTurn_stop]
    next => exact Iff.rfl

theorem awake_schedule (s : State) : Awake pending (s.stopped ++ [.quiet]) := by
  intro _
  exact ⟨s.periods.length, .quiet, by rw [scheduled_getElem?, if_pos rfl], rfl⟩

theorem OneTimer.schedule (h : OneTimer s.timer s.periods) :
    OneTimer (some s.periods.length) (s.stopped ++ [.quiet]) := by
  intro m hm
  rw [scheduled_getElem?] at hm
  split at hm
  next heq => rw [heq]
  next =>
    split at hm
    next =>
      obtain ⟨r, -, hr⟩ := Option.map_eq_some_iff.mp hm
      exact absurd hr r.stop_ne_quiet
    next htimer => exact absurd (h m hm) htimer

end

/-! ## Every order of events -/

structure Sound (s : State) : Prop where
  turn : OneTurn s.busy s.periods
  awake : Awake s.pending s.periods
  timer : OneTimer s.timer s.periods

theorem sound_start (scope : Scope) : Sound (State.start scope) where
  turn := ⟨none, rfl, fun n => by simp [State.start]⟩
  awake := by
    intro hfilled
    cases hfilled
  timer := by
    intro n hn
    cases hn

theorem Sound.effect {s s' : State} {e : Event} (h : Sound s) (he : Effect s e s') : Sound s' := by
  cases he with
  | schedule path => exact ⟨h.turn.schedule, awake_schedule s, h.timer.schedule⟩
  | expire hp => exact ⟨h.turn.keep hp rfl, h.awake.keep hp fun _ => rfl, h.timer.keep hp (by simp)⟩
  | enter hp hfree =>
    have hturn := h.turn
    rw [hfree] at hturn
    exact ⟨hturn.gain hp rfl, h.awake.keep hp fun _ => rfl, h.timer.keep hp (by simp)⟩
  | pass hp hempty =>
    refine ⟨h.turn.release hp rfl rfl, fun hfilled => ?_, h.timer.keep hp (by simp)⟩
    exact absurd hempty (by rw [hfilled]; decide)
  | take hp hfilled =>
    refine ⟨h.turn.keep hp rfl, fun hfilled => ?_, h.timer.keep hp (by simp)⟩
    cases hfilled
  | hand answer log hp => exact ⟨h.turn.keep hp rfl, h.awake.keep hp fun hno => hno, h.timer.keep hp (by simp)⟩
  | finish answer hp =>
    refine ⟨h.turn.release hp rfl rfl, h.awake.keep hp fun hno => ?_, h.timer.keep hp (by simp)⟩
    cases hno
  | register callback => exact ⟨h.turn, h.awake, h.timer⟩
  | none => exact h

theorem Sound.after {s : State} (h : Sound s) (events : List Event) : Sound (run s events) := by
  induction events using List.reverseRecOn with
  | nil => exact h
  | append_singleton events e ih =>
    rw [run_concat]
    exact ih.effect (effect_apply _ e)

theorem sound_run (scope : Scope) (events : List Event) : Sound (run (State.start scope) events) :=
  (sound_start scope).after events

/-! ## Coming to rest -/

/-- Without a further change a watcher can come to have nothing pending and no delivery under way. -/
def CanRest (s : State) : Prop :=
  ∃ more, (∀ path, Event.schedule path ∉ more) ∧ (run s more).pending.isEmpty = true ∧ (run s more).busy = false

section

variable {s : State} {n : Nat}

theorem CanRest.before (events : List Event) (h : CanRest (run s events)) (hno : ∀ path, Event.schedule path ∉ events) :
    CanRest s := by
  obtain ⟨more, hmore, hrest⟩ := h
  refine ⟨events ++ more, fun path hin => ?_, by rwa [run, List.foldl_append]⟩
  rcases List.mem_append.mp hin with hin | hin
  · exact hno path hin
  · exact hmore path hin

theorem run_hands {changed : List Text} {left : List Nat} (h : s.periods[n]? = some (.delivering ⟨changed, left⟩)) :
    (run s (List.replicate (left.length + 1) (.hand n none))).pending = s.pending ∧
      (run s (List.replicate (left.length + 1) (.hand n none))).busy = false := by
  induction left generalizing s with
  | nil => simp [run, Event.apply, State.hand, h]
  | cons callback rest ih =>
    have hstep : s.hand n none =
        { s with
          periods := s.periods.set n (.delivering ⟨changed, rest⟩)
          handed := ⟨n, callback, changed⟩ :: s.handed } := by
      simp only [State.hand, h]
    have hnext : (s.hand n none).periods[n]? = some (.delivering ⟨changed, rest⟩) := by
      rw [hstep, getElem?_set_found h, if_pos rfl]
    obtain ⟨hpending, hbusy⟩ := ih hnext
    exact ⟨hpending.trans (by rw [hstep]), hbusy⟩

theorem hands_no_schedule (count : Nat) (path : Text) : Event.schedule path ∉ List.replicate count (.hand n none) := by
  simp [List.mem_replicate]

theorem canRest_of_delivering {changed : List Text} {left : List Nat}
    (h : s.periods[n]? = some (.delivering ⟨changed, left⟩)) (hempty : s.pending.isEmpty = true) : CanRest s := by
  obtain ⟨hpending, hbusy⟩ := run_hands h
  exact ⟨_, hands_no_schedule _, hpending ▸ hempty, hbusy⟩

theorem canRest_of_entered (h : s.periods[n]? = some .entered) : CanRest s := by
  refine CanRest.before [.take n] ?_ (by simp)
  change CanRest (s.take n)
  rw [State.take, h]
  by_cases hempty : s.pending.isEmpty = true
  · rw [if_pos hempty]
    exact ⟨[], by simp, hempty, rfl⟩
  · rw [if_neg hempty]
    have hnext {q : Period} : (s.periods.set n q)[n]? = some q := by rw [getElem?_set_found h, if_pos rfl]
    exact canRest_of_delivering hnext rfl

theorem Sound.canRest_of_free (h : Sound s) (hfree : s.busy = false) : CanRest s := by
  by_cases hempty : s.pending.isEmpty = true
  · exact ⟨[], by simp, hempty, hfree⟩
  · obtain ⟨n, p, hp, hawaits⟩ := h.awake (by simpa using hempty)
    have hturn {s : State} (hp : s.periods[n]? = some .waiting) (hfree : s.busy = false) : CanRest s := by
      refine CanRest.before [.enter n] ?_ (by simp)
      exact canRest_of_entered (n := n) (by simp [run, Event.apply, State.enter, hp, hfree, getElem?_set_found hp])
    cases p with
    | quiet =>
      refine CanRest.before [.expire n] (hturn ?_ ?_) (by simp)
      · simp [run, Event.apply, State.expire, hp, getElem?_set_found hp]
      · simp [run, Event.apply, State.expire, hp, hfree]
    | waiting => exact hturn hp hfree
    | entered => exact canRest_of_entered hp
    | _ => cases hawaits

theorem Sound.canRest (h : Sound s) : CanRest s := by
  obtain ⟨holder, hbusy, hturn⟩ := h.turn
  cases holder with
  | none => exact h.canRest_of_free hbusy
  | some n =>
    obtain ⟨p, hp, hhas⟩ := (Option.any_eq_true _ _).mp ((hturn n).mpr rfl)
    cases p with
    | entered => exact canRest_of_entered hp
    | delivering d =>
      obtain ⟨-, hfree⟩ := run_hands hp
      exact ((h.after _).canRest_of_free hfree).before _ (hands_no_schedule _)
    | _ => cases hhas

end

end RpcBindings.Watch
