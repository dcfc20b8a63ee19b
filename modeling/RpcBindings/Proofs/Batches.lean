import RpcBindings.Proofs.Watching

/-!
# No change is lost and none is made up

Events are counted from the start of a run, so that it can be said which of two came first. A path is pending from the
event that schedules it to the next taking, and from a taking on the batch goes to one callback after the other,
whatever they answer. Each is an induction over the events, by what one event can do. `Faithful` puts together what
holds of every run.
-/

namespace RpcBindings.Watch

/-! ## Moments of a run -/

def stateAt (scope : Scope) (events : List Event) (k : Nat) : State := run (State.start scope) (events.take k)

def Event.callback? : Event → Option Callback
  | register callback => some callback
  | _ => none

def registered (events : List Event) : List Callback := events.filterMap Event.callback?

def ScheduledAt (events : List Event) (k : Nat) (path : Text) : Prop :=
  ∃ raw, events[k]? = some (.schedule raw) ∧ Path.clean raw = path

structure TakenAt (scope : Scope) (events : List Event) (k n : Nat) (batch : List Text) : Prop where
  event : events[k]? = some (.take n)
  entered : (stateAt scope events k).periods[n]? = some .entered
  paths : (stateAt scope events k).pending.names = batch

section

variable {scope : Scope} {events : List Event} {e : Event} {k m n : Nat} {path : Text} {batch : List Text}

theorem getElem?_concat_iff {α : Type} {xs : List α} {x y : α} :
    (xs ++ [x])[k]? = some y ↔ xs[k]? = some y ∨ k = xs.length ∧ x = y := by
  rcases Nat.lt_trichotomy k xs.length with hlt | rfl | hgt
  · simp [List.getElem?_append_left hlt, Nat.ne_of_lt hlt]
  · simp
  · have hnone : xs[k]? = none := List.getElem?_eq_none (by omega)
    have hbehind : (xs ++ [x])[k]? = none :=
      List.getElem?_eq_none (by rw [List.length_append, List.length_singleton]; omega)
    simp [hnone, hbehind, Nat.ne_of_gt hgt]

theorem lt_length_of_getElem? {α : Type} {xs : List α} {x : α} (h : xs[k]? = some x) : k < xs.length :=
  (List.getElem?_eq_some_iff.mp h).1

theorem stateAt_length (scope : Scope) (events : List Event) :
    stateAt scope events events.length = run (State.start scope) events := by
  rw [stateAt, List.take_length]

theorem stateAt_concat (scope : Scope) (e : Event) (hk : k ≤ events.length) :
    stateAt scope (events ++ [e]) k = stateAt scope events k := by
  rw [stateAt, List.take_append_of_le_length hk]
  rfl

theorem stateAt_take (scope : Scope) (events : List Event) (hk : k ≤ m) :
    stateAt scope (events.take m) k = stateAt scope events k := by
  rw [stateAt, List.take_take, Nat.min_eq_left hk]
  rfl

theorem scheduledAt_concat : ScheduledAt (events ++ [e]) k path ↔
    ScheduledAt events k path ∨ k = events.length ∧ ∃ raw, e = .schedule raw ∧ Path.clean raw = path := by
  simp only [ScheduledAt, getElem?_concat_iff, or_and_right, exists_or, and_assoc, exists_and_left]

theorem takenAt_concat : TakenAt scope (events ++ [e]) k n batch ↔
    TakenAt scope events k n batch ∨ k = events.length ∧ e = .take n ∧
      (run (State.start scope) events).periods[n]? = some .entered ∧
      (run (State.start scope) events).pending.names = batch := by
  constructor
  · rintro ⟨hevent, hentered, hpaths⟩
    rcases getElem?_concat_iff.mp hevent with hold | ⟨rfl, rfl⟩
    · rw [stateAt_concat scope e (Nat.le_of_lt (lt_length_of_getElem? hold))] at hentered hpaths
      exact .inl ⟨hold, hentered, hpaths⟩
    · rw [stateAt_concat scope _ (Nat.le_refl _), stateAt_length] at hentered hpaths
      exact .inr ⟨rfl, rfl, hentered, hpaths⟩
  · rintro (⟨hevent, hentered, hpaths⟩ | ⟨rfl, rfl, hentered, hpaths⟩)
    · have hk := Nat.le_of_lt (lt_length_of_getElem? hevent)
      refine ⟨getElem?_concat_iff.mpr (.inl hevent), ?_, ?_⟩
      · rwa [stateAt_concat scope e hk]
      · rwa [stateAt_concat scope e hk]
    · refine ⟨getElem?_concat_iff.mpr (.inr ⟨rfl, rfl⟩), ?_, ?_⟩
      · rwa [stateAt_concat scope _ (Nat.le_refl _), stateAt_length]
      · rwa [stateAt_concat scope _ (Nat.le_refl _), stateAt_length]

theorem TakenAt.lt_length (h : TakenAt scope events k n batch) : k < events.length := lt_length_of_getElem? h.event

theorem TakenAt.concat (h : TakenAt scope events k n batch) (e : Event) : TakenAt scope (events ++ [e]) k n batch :=
  takenAt_concat.mpr (.inl h)

end

/-! ## From scheduling to taking -/

theorem Effect.pending_cases {s s' : State} {e : Event} (h : Effect s e s') :
    (∃ path, e = .schedule path ∧ s'.pending = s.pending.add (Path.clean path)) ∨
    (∃ n, e = .take n ∧ s.periods[n]? = some .entered ∧ s'.pending.names = []) ∨
    ((∀ path, e ≠ .schedule path) ∧ (∀ n, e = .take n → s.periods[n]? ≠ some .entered) ∧ s'.pending = s.pending) := by
  cases h with
  | schedule path => exact .inl ⟨path, rfl, rfl⟩
  | pass hp hempty =>
    exact .inr (.inl ⟨_, rfl, hp, NameSet.names_eq_nil_iff.mpr hempty⟩)
  | take hp => exact .inr (.inl ⟨_, rfl, hp, rfl⟩)
  | none hschedule htake _ => exact .inr (.inr ⟨hschedule, htake, rfl⟩)
  | _ => exact .inr (.inr ⟨by simp, by simp, rfl⟩)

section

variable {scope : Scope} {events : List Event} {path : Text}

theorem pending_or_taken {k : Nat} (h : ScheduledAt events k path) :
    path ∈ (run (State.start scope) events).pending.names ∨
      ∃ m n batch, k < m ∧ TakenAt scope events m n batch ∧ path ∈ batch := by
  induction events using List.reverseRecOn with
  | nil =>
    obtain ⟨raw, hraw, -⟩ := h
    cases hraw
  | append_singleton events e ih =>
    rw [run_concat]
    rcases scheduledAt_concat.mp h with hold | ⟨rfl, raw, rfl, rfl⟩
    · rcases ih hold with hpending | ⟨m, n, batch, hm, htaken, hin⟩
      · rcases (effect_apply (run (State.start scope) events) e).pending_cases with
          ⟨raw, -, hadded⟩ | ⟨n, rfl, hentered, -⟩ | ⟨-, -, hsame⟩
        · rw [hadded]
          exact .inl (NameSet.mem_keys_add.mpr (.inr hpending))
        · obtain ⟨raw, hraw, -⟩ := hold
          exact .inr ⟨events.length, n, _, lt_length_of_getElem? hraw,
            takenAt_concat.mpr (.inr ⟨rfl, rfl, hentered, rfl⟩), hpending⟩
        · rw [hsame]
          exact .inl hpending
      · exact .inr ⟨m, n, batch, hm, htaken.concat e, hin⟩
    · exact .inl (NameSet.mem_keys_add.mpr (.inl rfl))

theorem scheduled_of_pending (h : path ∈ (run (State.start scope) events).pending.names) :
    ∃ k, ScheduledAt events k path ∧ ∀ m n batch, k < m → ¬ TakenAt scope events m n batch := by
  induction events using List.reverseRecOn with
  | nil => cases h
  | append_singleton events e ih =>
    rw [run_concat] at h
    -- a path that was pending before stays so unless the event is a taking
    have hearlier (hpending : path ∈ (run (State.start scope) events).pending.names)
        (hnone : ∀ n, e = .take n → (run (State.start scope) events).periods[n]? ≠ some .entered) :
        ∃ k, ScheduledAt (events ++ [e]) k path ∧ ∀ m n batch, k < m → ¬ TakenAt scope (events ++ [e]) m n batch := by
      obtain ⟨k, hk, hlast⟩ := ih hpending
      refine ⟨k, scheduledAt_concat.mpr (.inl hk), fun m n batch hm htaken => ?_⟩
      rcases takenAt_concat.mp htaken with hold | ⟨-, htake, hentered, -⟩
      · exact hlast m n batch hm hold
      · exact hnone n htake hentered
    rcases (effect_apply (run (State.start scope) events) e).pending_cases with
      ⟨raw, rfl, hadded⟩ | ⟨n, -, -, hempty⟩ | ⟨-, hnone, hsame⟩
    · rw [hadded] at h
      rcases NameSet.mem_keys_add.mp h with rfl | hpending
      · refine ⟨events.length, scheduledAt_concat.mpr (.inr ⟨rfl, raw, rfl, rfl⟩), fun m n batch hm htaken => ?_⟩
        have hlength := htaken.lt_length
        rw [List.length_append, List.length_singleton] at hlength
        omega
      · exact hearlier hpending (by simp)
    · rw [hempty] at h
      cases h
    · rw [hsame] at h
      exact hearlier h hnone

theorem scheduled_of_taken {m n : Nat} {batch : List Text} (h : TakenAt scope events m n batch) (hin : path ∈ batch) :
    ∃ k < m, ScheduledAt events k path ∧ ∀ j n' batch', k < j → j < m → ¬ TakenAt scope events j n' batch' := by
  rw [← h.paths] at hin
  obtain ⟨k, ⟨raw, hraw, hclean⟩, hlast⟩ := scheduled_of_pending hin
  rw [List.getElem?_take] at hraw
  split at hraw
  next hk =>
    refine ⟨k, hk, ⟨raw, hraw, hclean⟩, fun j n' batch' hj hjm htaken => hlast j n' batch' hj ⟨?_, ?_, ?_⟩⟩
    · rw [List.getElem?_take, if_pos hjm, htaken.event]
    · rw [stateAt_take scope events (Nat.le_of_lt hjm), htaken.entered]
    · rw [stateAt_take scope events (Nat.le_of_lt hjm), htaken.paths]
  next => cases hraw

end

/-! ## From taking to the callbacks -/

theorem Effect.callbacks {s s' : State} {e : Event} (h : Effect s e s') :
    s'.callbacks = s.callbacks ++ e.callback?.toList := by
  cases h with
  | register callback => rfl
  | none _ _ hregister =>
    cases e with
    | register callback => exact absurd rfl (hregister callback)
    | _ => exact (List.append_nil _).symm
  | _ => exact (List.append_nil _).symm

theorem callbacks_run (scope : Scope) (events : List Event) :
    (run (State.start scope) events).callbacks = registered events := by
  induction events using List.reverseRecOn with
  | nil => rfl
  | append_singleton events e ih =>
    rw [run_concat, (effect_apply _ e).callbacks, ih, registered, registered, List.filterMap_append]
    cases e <;> rfl

def handedIn (s : State) (n : Nat) : List Handed := (s.handed.filter fun h => h.period == n).reverse

/-- A batch went to the first of some callbacks, in their order and once to each, and its delivery goes on with the
others. It is over only when there are none left. -/
def Delivered (s : State) (n : Nat) (batch : List Text) (count : Nat) : Prop :=
  ∃ given left, List.range count = given ++ left ∧ handedIn s n = given.map (Handed.mk n · batch) ∧
    (s.periods[n]? = some (.delivering ⟨batch, left⟩) ∨ left = [] ∧ s.periods[n]? = some .finished)

def Period.settled : Period → Bool
  | delivering _ => true
  | finished => true
  | _ => false

theorem Period.stop_of_settled {p : Period} (h : p.settled = true) : p.stop = p := by
  cases p with
  | quiet => cases h
  | _ => rfl

section

variable {s s' : State} {e : Event} {n m : Nat} {p q r : Period} {batch : List Text}

theorem getElem?_set_apart (hm : s.periods[m]? = some r) (hn : s.periods[n]? = some p) (h : r ≠ p) :
    (s.periods.set m q)[n]? = some p := by
  rw [getElem?_set_found hm, if_neg, hn]
  rintro rfl
  exact h (Option.some.inj (hm.symm.trans hn))

theorem scheduled_settled (hn : s.periods[n]? = some p) (hp : p.settled = true) :
    (s.stopped ++ [.quiet])[n]? = some p := by
  have hlt := lt_length_of_getElem? hn
  rw [scheduled_getElem?, if_neg (Nat.ne_of_lt hlt), hn, Option.map_some, Period.stop_of_settled hp, ite_self]

theorem Effect.settled_cases (h : Effect s e s') (hn : s.periods[n]? = some p) (hp : p.settled = true) :
    (s'.periods[n]? = some p ∧ handedIn s' n = handedIn s n) ∨
    (∃ callback changed rest, p = .delivering ⟨changed, callback :: rest⟩ ∧
      s'.periods[n]? = some (.delivering ⟨changed, rest⟩) ∧ handedIn s' n = handedIn s n ++ [⟨n, callback, changed⟩]) ∨
    ∃ changed, p = .delivering ⟨changed, []⟩ ∧ s'.periods[n]? = some .finished ∧ handedIn s' n = handedIn s n := by
  cases h with
  | schedule path => exact .inl ⟨scheduled_settled hn hp, rfl⟩
  | register => exact .inl ⟨hn, rfl⟩
  | none => exact .inl ⟨hn, rfl⟩
  | expire hm => exact .inl ⟨getElem?_set_apart hm hn (by rintro rfl; cases hp), rfl⟩
  | enter hm => exact .inl ⟨getElem?_set_apart hm hn (by rintro rfl; cases hp), rfl⟩
  | pass hm => exact .inl ⟨getElem?_set_apart hm hn (by rintro rfl; cases hp), rfl⟩
  | take hm => exact .inl ⟨getElem?_set_apart hm hn (by rintro rfl; cases hp), rfl⟩
  | @hand m callback changed rest answer log hm =>
    rw [getElem?_set_found hm]
    by_cases hmn : n = m
    · subst hmn
      obtain rfl := Option.some.inj (hm.symm.trans hn)
      exact .inr (.inl ⟨callback, changed, rest, rfl, if_pos rfl, by simp [handedIn]⟩)
    · exact .inl ⟨by rw [if_neg hmn, hn], by simp [handedIn, Ne.symm hmn]⟩
  | @finish m changed answer hm =>
    rw [getElem?_set_found hm]
    by_cases hmn : n = m
    · subst hmn
      obtain rfl := Option.some.inj (hm.symm.trans hn)
      exact .inr (.inr ⟨changed, rfl, if_pos rfl, rfl⟩)
    · exact .inl ⟨by rw [if_neg hmn, hn], rfl⟩

theorem Effect.settled (h : Effect s e s') (hn : s.periods[n]? = some p) (hp : p.settled = true) :
    ∃ p', s'.periods[n]? = some p' ∧ p'.settled = true := by
  rcases h.settled_cases hn hp with ⟨hsame, -⟩ | ⟨_, _, _, -, hnext, -⟩ | ⟨_, -, hover, -⟩
  · exact ⟨p, hsame, hp⟩
  · exact ⟨_, hnext, rfl⟩
  · exact ⟨_, hover, rfl⟩

theorem Delivered.effect {count : Nat} (h : Delivered s n batch count) (he : Effect s e s') :
    Delivered s' n batch count := by
  obtain ⟨given, left, hrange, hgiven, hdelivering | ⟨rfl, hover⟩⟩ := h
  · rcases he.settled_cases hdelivering rfl with ⟨hsame, hhanded⟩ | ⟨callback, changed, rest, heq, hnext, hhanded⟩ |
      ⟨changed, heq, hover, hhanded⟩
    · exact ⟨given, left, hrange, hhanded.trans hgiven, .inl hsame⟩
    · obtain ⟨rfl, rfl⟩ : batch = changed ∧ left = callback :: rest := by simpa using heq
      refine ⟨given ++ [callback], rest, ?_, ?_, .inl hnext⟩
      · rw [hrange, List.append_assoc, List.singleton_append]
      · rw [hhanded, hgiven, List.map_append, List.map_singleton]
    · obtain ⟨rfl, rfl⟩ : batch = changed ∧ left = [] := by simpa using heq
      exact ⟨given, [], hrange, hhanded.trans hgiven, .inr ⟨rfl, hover⟩⟩
  · rcases he.settled_cases hover rfl with ⟨hsame, hhanded⟩ | ⟨_, _, _, heq, -⟩ | ⟨_, heq, -⟩
    · exact ⟨given, [], hrange, hhanded.trans hgiven, .inr ⟨rfl, hsame⟩⟩
    · cases heq
    · cases heq

theorem Effect.handed_cases (h : Effect s e s') :
    s'.handed = s.handed ∨ ∃ n callback changed rest, s.periods[n]? = some (.delivering ⟨changed, callback :: rest⟩) ∧
      s'.periods[n]? = some (.delivering ⟨changed, rest⟩) ∧ s'.handed = ⟨n, callback, changed⟩ :: s.handed := by
  cases h with
  | hand answer log hm => exact .inr ⟨_, _, _, _, hm, by rw [getElem?_set_found hm, if_pos rfl], rfl⟩
  | _ => exact .inl rfl

theorem delivering_of_set {d : Delivery} (hm : s.periods[m]? = some r) (hq : q ≠ .delivering d)
    (hn : (s.periods.set m q)[n]? = some (.delivering d)) : s.periods[n]? = some (.delivering d) := by
  rw [getElem?_set_found hm] at hn
  split at hn
  next => exact absurd (Option.some.inj hn) hq
  next => exact hn

theorem Effect.delivering_cases {left : List Nat} (h : Effect s e s')
    (hn : s'.periods[n]? = some (.delivering ⟨batch, left⟩)) :
    (e = .take n ∧ s.periods[n]? = some .entered ∧ s.pending.names = batch ∧ batch ≠ []) ∨
      ∃ more, s.periods[n]? = some (.delivering ⟨batch, more⟩) := by
  cases h with
  | schedule path =>
    change (s.stopped ++ [.quiet])[n]? = _ at hn
    rw [scheduled_getElem?] at hn
    split at hn
    next => cases hn
    next =>
      split at hn
      next =>
        obtain ⟨p, hp, hstop⟩ := Option.map_eq_some_iff.mp hn
        cases p <;> cases hstop
        exact .inr ⟨left, hp⟩
      next => exact .inr ⟨left, hn⟩
  | register => exact .inr ⟨left, hn⟩
  | none => exact .inr ⟨left, hn⟩
  | expire hm => exact .inr ⟨left, delivering_of_set hm (by simp) hn⟩
  | enter hm => exact .inr ⟨left, delivering_of_set hm (by simp) hn⟩
  | pass hm => exact .inr ⟨left, delivering_of_set hm (by simp) hn⟩
  | finish answer hm => exact .inr ⟨left, delivering_of_set hm (by simp) hn⟩
  | take hm hfilled =>
    rw [getElem?_set_found hm] at hn
    split at hn
    next heq =>
      subst heq
      obtain ⟨rfl, -⟩ : s.pending.names = batch ∧ List.range s.callbacks.length = left := by simpa using hn
      refine .inl ⟨rfl, hm, rfl, mt NameSet.names_eq_nil_iff.mp ?_⟩
      rw [hfilled]
      decide
    next => exact .inr ⟨left, hn⟩
  | hand answer log hm =>
    rw [getElem?_set_found hm] at hn
    split at hn
    next heq =>
      subst heq
      obtain ⟨rfl, -⟩ : _ = batch ∧ _ = left := by simpa using hn
      exact .inr ⟨_, hm⟩
    next => exact .inr ⟨left, hn⟩

end

section

variable {scope : Scope} {events : List Event} {n : Nat}

theorem taken_of_delivering {batch : List Text} {left : List Nat}
    (h : (run (State.start scope) events).periods[n]? = some (.delivering ⟨batch, left⟩)) :
    batch ≠ [] ∧ ∃ m, TakenAt scope events m n batch := by
  induction events using List.reverseRecOn generalizing left with
  | nil => cases h
  | append_singleton events e ih =>
    rw [run_concat] at h
    rcases (effect_apply _ e).delivering_cases h with ⟨htake, hentered, hpaths, hne⟩ | ⟨more, hmore⟩
    · exact ⟨hne, events.length, takenAt_concat.mpr (.inr ⟨rfl, htake, hentered, hpaths⟩)⟩
    · obtain ⟨hne, m, htaken⟩ := ih hmore
      exact ⟨hne, m, htaken.concat e⟩

theorem settled_of_handed {h : Handed} (hin : h ∈ (run (State.start scope) events).handed) :
    ∃ p, (run (State.start scope) events).periods[h.period]? = some p ∧ p.settled = true := by
  induction events using List.reverseRecOn with
  | nil => cases hin
  | append_singleton events e ih =>
    rw [run_concat] at hin ⊢
    have heffect := effect_apply (run (State.start scope) events) e
    rcases heffect.handed_cases with hsame | ⟨n, callback, changed, rest, hfound, hnext, hadded⟩
    · rw [hsame] at hin
      obtain ⟨p, hp, hsettled⟩ := ih hin
      exact heffect.settled hp hsettled
    · rw [hadded] at hin
      rcases List.mem_cons.mp hin with rfl | hold
      · exact ⟨_, hnext, rfl⟩
      · obtain ⟨p, hp, hsettled⟩ := ih hold
        exact heffect.settled hp hsettled

theorem taken_of_handed {h : Handed} (hin : h ∈ (run (State.start scope) events).handed) :
    h.changed ≠ [] ∧ ∃ m, TakenAt scope events m h.period h.changed := by
  induction events using List.reverseRecOn with
  | nil => cases hin
  | append_singleton events e ih =>
    rw [run_concat] at hin
    have hold (hin : h ∈ (run (State.start scope) events).handed) :
        h.changed ≠ [] ∧ ∃ m, TakenAt scope (events ++ [e]) m h.period h.changed := by
      obtain ⟨hne, m, htaken⟩ := ih hin
      exact ⟨hne, m, htaken.concat e⟩
    rcases (effect_apply (run (State.start scope) events) e).handed_cases with hsame |
      ⟨n, callback, changed, rest, hfound, -, hadded⟩
    · rw [hsame] at hin
      exact hold hin
    · rw [hadded] at hin
      rcases List.mem_cons.mp hin with rfl | hin
      · obtain ⟨hne, m, htaken⟩ := taken_of_delivering hfound
        exact ⟨hne, m, htaken.concat e⟩
      · exact hold hin

theorem handedIn_of_entered (h : (run (State.start scope) events).periods[n]? = some .entered) :
    handedIn (run (State.start scope) events) n = [] := by
  rw [handedIn, List.reverse_eq_nil_iff, List.filter_eq_nil_iff]
  intro given hin hn
  obtain ⟨p, hp, hsettled⟩ := settled_of_handed hin
  rw [beq_iff_eq.mp hn] at hp
  obtain rfl := Option.some.inj (h.symm.trans hp)
  cases hsettled

theorem delivered_of_taken {m : Nat} {batch : List Text} (h : TakenAt scope events m n batch) (hne : batch ≠ []) :
    Delivered (run (State.start scope) events) n batch (registered (events.take m)).length := by
  rw [← callbacks_run scope]
  change Delivered _ n batch (stateAt scope events m).callbacks.length
  induction events using List.reverseRecOn with
  | nil => exact absurd h.lt_length (Nat.not_lt_zero m)
  | append_singleton events e ih =>
    rw [run_concat]
    have heffect := effect_apply (run (State.start scope) events) e
    rcases takenAt_concat.mp h with hold | ⟨rfl, rfl, hentered, rfl⟩
    · rw [stateAt_concat scope e (Nat.le_of_lt hold.lt_length)]
      exact (ih hold).effect heffect
    · rw [stateAt_concat scope _ (Nat.le_refl _), stateAt_length]
      have hhanded := handedIn_of_entered hentered
      generalize Event.apply (run (State.start scope) events) (.take n) = after at heffect ⊢
      cases heffect with
      | pass _ hempty => exact absurd (NameSet.names_eq_nil_iff.mpr hempty) hne
      | none _ htake _ => exact absurd hentered (htake n rfl)
      | take =>
        exact ⟨[], _, (List.nil_append _).symm, hhanded, .inl (by rw [getElem?_set_found hentered, if_pos rfl])⟩

end

theorem Delivered.callback_lt {s : State} {h : Handed} {batch : List Text} {count : Nat}
    (hd : Delivered s h.period batch count) (hin : h ∈ s.handed) : h.callback < count := by
  obtain ⟨given, left, hrange, hgiven, -⟩ := hd
  have hself : h ∈ handedIn s h.period := by simp [handedIn, hin]
  rw [hgiven] at hself
  obtain ⟨callback, hcallback, hmade⟩ := List.mem_map.mp hself
  rw [← hmade, ← List.mem_range, hrange]
  exact List.mem_append_left left hcallback

theorem TakenAt.ascending {scope : Scope} {events : List Event} {k n : Nat} {batch : List Text}
    (h : TakenAt scope events k n batch) : batch.Pairwise (· < ·) := by
  rw [← h.paths]
  exact Dict.keys_ascending _

/-! ## Every run -/

/-- A run loses no change and makes none up. -/
structure Faithful (scope : Scope) (events : List Event) : Prop where
  /-- A path that was scheduled is pending or was taken later. -/
  kept : ∀ k path, ScheduledAt events k path →
    path ∈ (run (State.start scope) events).pending.names ∨
      ∃ m n batch, k < m ∧ TakenAt scope events m n batch ∧ path ∈ batch
  /-- A path that was taken was scheduled after the taking before. -/
  caused : ∀ m n batch, TakenAt scope events m n batch → ∀ path ∈ batch,
    ∃ k < m, ScheduledAt events k path ∧ ∀ j n' batch', k < j → j < m → ¬ TakenAt scope events j n' batch'
  /-- A watcher has the callbacks that were registered, in their order. -/
  callbacks : (run (State.start scope) events).callbacks = registered events
  /-- A batch goes to all callbacks that were registered before it was taken, whatever they answer. -/
  delivered : ∀ m n batch, TakenAt scope events m n batch → batch ≠ [] →
    Delivered (run (State.start scope) events) n batch (registered (events.take m)).length
  handed : ∀ h ∈ (run (State.start scope) events).handed, h.changed ≠ [] ∧ h.changed.Pairwise (· < ·) ∧
    ∃ m, TakenAt scope events m h.period h.changed ∧ h.callback < (registered (events.take m)).length
  exclusive : ∀ (i j : Nat) (p q : Period), (run (State.start scope) events).periods[i]? = some p →
    (run (State.start scope) events).periods[j]? = some q → p.hasTurn = true → q.hasTurn = true → i = j
  single : ∀ i j : Nat, (run (State.start scope) events).periods[i]? = some .quiet →
    (run (State.start scope) events).periods[j]? = some .quiet → i = j
  awake : Awake (run (State.start scope) events).pending (run (State.start scope) events).periods
  rests : CanRest (run (State.start scope) events)

theorem run_faithful (scope : Scope) (events : List Event) : Faithful scope events where
  kept _ _ := pending_or_taken
  caused _ _ _ htaken _ := scheduled_of_taken htaken
  callbacks := callbacks_run scope events
  delivered _ _ _ := delivered_of_taken
  handed h hin := by
    obtain ⟨hne, m, htaken⟩ := taken_of_handed hin
    exact ⟨hne, htaken.ascending, m, htaken, (delivered_of_taken htaken hne).callback_lt hin⟩
  exclusive i j p q hi hj hp hq := by
    obtain ⟨holder, -, hturn⟩ := (sound_run scope events).turn
    have hholder : holder = some i := (hturn i).mp (by rw [hi, Option.any_some, hp])
    have hother : holder = some j := (hturn j).mp (by rw [hj, Option.any_some, hq])
    exact Option.some.inj (hholder.symm.trans hother)
  single i j hi hj := by
    have htimer := (sound_run scope events).timer
    exact Option.some.inj ((htimer i hi).symm.trans (htimer j hj))
  awake := (sound_run scope events).awake
  rests := (sound_run scope events).canRest

/-- A period ends while the delivery before it is under way, and the change that came meanwhile waits for its turn. The
first callback fails and the second still gets the batch, the third comes too late for it. -/
example :
    let s := run (State.start (Scope.empty ".json"))
      [.register none, .register none, .schedule "b", .schedule "./a", .expire 1, .enter 1, .take 1, .schedule "c",
        .register none, .expire 2, .enter 2, .hand 1 (some (.plain "refused")), .take 2, .hand 1 none, .hand 1 none, .enter 2, .take 2]
    s.handed = [⟨1, 1, ["a", "b"]⟩, ⟨1, 0, ["a", "b"]⟩] ∧
      s.periods = [.cut, .finished, .delivering ⟨["c"], [0, 1, 2]⟩] := by
  decide

end RpcBindings.Watch
