import Flowline.Proofs.Feed.Runs
import Flowline.Proofs.Monitor.History
import Flowline.Source.Mock

/-!
# The pace of a subscription

A subscription whose source answers at once takes a turn at every instant `start + k * period`, and
at no other, whatever else happens to the feed. In each turn its listener is told one thing, which
depends on the monitor and the source as they are then (`Turn.Tells`). What carries this through a
run is that the timer always stands at the next of these instants, which time has not passed
(`OnSchedule`). `keepsPace` puts it together.
-/

namespace Flowline

/-- A source that answers at once, and with news of the flow that it is asked about. -/
structure Source.IsPrompt {σ : Type} (source : Source σ) : Prop where
  delay : ∀ memory s, (source.fetch memory s).1.delay = 0
  named : ∀ memory s event, (source.fetch memory s).1.result = .ok event → event.flowName = s.name

namespace Feed

variable {σ : Type} {f : Feed σ} {s : Subscription}

/-! ## What a turn tells -/

/-- The listener is told one thing: that the flow is not registered, or that the fetch failed, or
the event with the map after it. Only an event changes the monitor. -/
def Turn.Tells (t : Turn σ) (flowName : String) : Prop :=
  match t.before.monitor.snapshot? flowName with
  | none => t.news = [.error (.flowNotRegistered flowName)] ∧ t.after.monitor = t.before.monitor
  | some snapshot =>
    match (t.before.source.fetch t.before.memory snapshot).1.result with
    | .error e => t.news = [.error e] ∧ t.after.monitor = t.before.monitor
    | .ok event =>
      t.news = [.status event (t.after.monitor.board.mapOf flowName)] ∧
      t.after.monitor = { t.before.monitor with board := t.before.monitor.board.apply event }

theorem news_of_told {t : Turn σ} {u : Update}
    (h : t.after.told = t.before.told ++ [(t.subscription.id, u)]) : t.news = [u] := by
  simp [Turn.news, h]

theorem tells_tick (hprompt : f.source.IsPrompt) (hnamed : f.monitor.IsNamed) (s : Subscription)
    (tick : Nat) : Turn.Tells ⟨f, s, (f.tick s tick).1⟩ s.flowName := by
  unfold Turn.Tells
  cases hs : f.monitor.snapshot? s.flowName with
  | none =>
    rw [tick_of_none hs]
    exact ⟨news_of_told rfl, rfl⟩
  | some snapshot =>
    have hdelay := hprompt.delay f.memory snapshot
    dsimp only
    cases hresult : (f.source.fetch f.memory snapshot).1.result with
    | error e =>
      rw [tick_of_delay_eq hs hdelay, hresult]
      exact ⟨news_of_told rfl, rfl⟩
    | ok event =>
      have hevent : event.flowName = s.flowName :=
        (hprompt.named _ _ _ hresult).trans (hnamed _ _ hs)
      have hcontains : (f.asked snapshot).monitor.contains event.flowName = true := by
        rw [hevent]
        exact congrArg Option.isSome hs
      have hmap : (f.monitor.board.apply event).mapOf s.flowName =
          f.monitor.board.mapAfter event := by
        rw [← hevent]
        apply Board.mapOf_of_get?
        rw [Board.get?_apply, if_pos rfl]
        rfl
      rw [tick_of_delay_eq hs hdelay, hresult, deliver_of_contains hcontains]
      refine ⟨?_, rfl⟩
      rw [news_of_told rfl]
      exact congrArg (fun map => [Update.status event map]) hmap.symm

theorem snd_tick (hprompt : f.source.IsPrompt) (s : Subscription) (tick : Nat) :
    (f.tick s tick).2 = .waiting (tickAfter s.period tick f.now) := by
  cases hs : f.monitor.snapshot? s.flowName with
  | none => rw [tick_of_none hs]
  | some snapshot => rw [tick_of_delay_eq hs (hprompt.delay f.memory snapshot)]

/-- A subscription that acts in time ticks once, and next a period later. -/
theorem act_of_due (hprompt : f.source.IsPrompt) (hperiod : s.period ≠ 0)
    (hphase : s.phase = .waiting f.now) :
    f.act s = ((f.tick s f.now).1, .waiting (f.now + s.period)) := by
  have hafter : tickAfter s.period f.now f.now = f.now + s.period := by
    unfold tickAfter tolerance
    exact if_neg (by omega)
  have hnow : (f.tick s f.now).1.now = f.now := (serves_tick f s f.now).now
  have hnext := snd_tick hprompt s f.now
  rw [hafter] at hnext
  unfold act tolerance
  simp only [hphase]
  rw [ticks, if_pos (Nat.le_refl _)]
  simp only [hnext]
  rw [ticks, hnow, if_neg (by omega)]

/-! ## On schedule -/

/-- After the turns `ts`, of which `k` were those of a subscription, the next one is yet to come. -/
structure OnSchedule (id : Nat) (flowName : String) (period start : Nat) (ts : List (Turn σ))
    (k : Nat) (f : Feed σ) : Prop where
  prompt : f.source.IsPrompt
  named : f.monitor.IsNamed
  taken : id < f.nextId
  alone : (f.subscriptions.filter fun s => s.id = id) =
    [⟨id, flowName, period, .waiting (start + k * period)⟩]
  instants : (turnsBy id ts).map (fun t => t.before.now) =
    (List.range k).map fun j => start + j * period
  tells : ∀ t ∈ turnsBy id ts, t.Tells flowName
  past : ∀ j < k, start + j * period ≤ f.now
  early : f.now ≤ start + k * period

section Run

variable {id k : Nat} {flowName : String} {period start : Nat} {ts : List (Turn σ)} {g : Feed σ}

/-- Others may act, and the monitor may change otherwise, as long as flows keep their names. -/
theorem OnSchedule.congr (h : OnSchedule id flowName period start ts k f) {us : List (Turn σ)}
    (hus : turnsBy id us = []) (hnow : g.now = f.now) (hsource : g.source = f.source)
    (hnamed : g.monitor.IsNamed) (hnext : f.nextId ≤ g.nextId)
    (hsubscriptions : (g.subscriptions.filter fun s => s.id = id) =
      f.subscriptions.filter fun s => s.id = id) :
    OnSchedule id flowName period start (ts ++ us) k g where
  prompt := hsource ▸ h.prompt
  named := hnamed
  taken := Nat.lt_of_lt_of_le h.taken hnext
  alone := hsubscriptions.trans h.alone
  instants := by
    rw [turnsBy_append, hus, List.append_nil]
    exact h.instants
  tells := by
    rw [turnsBy_append, hus, List.append_nil]
    exact h.tells
  past := hnow ▸ h.past
  early := hnow ▸ h.early

theorem OnSchedule.settle_of_lt (h : OnSchedule id flowName period start ts k f)
    (hlt : f.now < start + k * period) :
    OnSchedule id flowName period start (ts ++ f.settleTurns) k f.settle := by
  have hnot : ¬ start + k * period ≤ f.now := by omega
  have hdue : (f.due.filter fun s => s.id = id) = [] := by
    rw [filter_due, h.alone]
    simp [Subscription.isDue, Phase.due, hnot]
  have hothers : ∀ s ∈ f.due, s.id ≠ id := by
    simpa only [List.filter_eq_nil_iff, decide_eq_true_eq] using hdue
  have hframe := sameFrame_settle f
  apply h.congr _ (now_settle f) hframe.source (Monitor.isNamed_congr hframe.registry h.named)
    (Nat.le_of_eq hframe.nextId.symm)
  · rw [settle_eq, filter_actAll hothers, filter_idle, h.alone]
    simp [Subscription.isDue, Phase.due, hnot]
  · rw [settleTurns_eq]
    exact turnsBy_turnsAll hothers

theorem OnSchedule.settle_of_eq (h : OnSchedule id flowName period start ts k f)
    (hperiod : 1 ≤ period) (heq : f.now = start + k * period) :
    OnSchedule id flowName period start (ts ++ f.settleTurns) (k + 1) f.settle := by
  let mine : Subscription := ⟨id, flowName, period, .waiting f.now⟩
  have hzero : mine.period ≠ 0 := Nat.ne_of_gt hperiod
  have hdue : (f.due.filter fun s => s.id = id) = [mine] := by
    rw [filter_due, h.alone, ← heq]
    simp [Subscription.isDue, Phase.due, mine]
  have hidle : (f.idle.subscriptions.filter fun s => s.id = id) = [] := by
    rw [filter_idle, h.alone, ← heq]
    simp [Subscription.isDue, Phase.due]
  obtain ⟨g, hg, hnow, hturns, hlater⟩ := exists_turn_of_due hzero hdue
  have hprompt : g.source.IsPrompt := hg.source ▸ h.prompt
  have hnamed : g.monitor.IsNamed := Monitor.isNamed_congr hg.registry h.named
  have hact : g.act mine = ((g.tick mine g.now).1, .waiting (f.now + period)) := by
    rw [act_of_due hprompt hzero (congrArg Phase.waiting hnow.symm), hnow]
  rw [hidle, hact] at hlater
  rw [hact] at hturns
  have hframe := sameFrame_settle f
  have hnext : start + (k + 1) * period = f.now + period := by rw [heq, Nat.succ_mul, Nat.add_assoc]
  constructor
  · exact hframe.source ▸ h.prompt
  · exact Monitor.isNamed_congr hframe.registry h.named
  · exact hframe.nextId ▸ h.taken
  · rw [hnext]
    exact hlater
  · rw [turnsBy_append, hturns, List.map_append, h.instants, List.range_succ, List.map_append,
      List.map_singleton, List.map_singleton, ← heq, hnow]
  · intro t ht
    rw [turnsBy_append, hturns, List.mem_append, List.mem_singleton] at ht
    rcases ht with ht | rfl
    · exact h.tells t ht
    · exact tells_tick hprompt hnamed mine g.now
  · intro j hj
    rw [now_settle]
    rcases Nat.lt_succ_iff_lt_or_eq.1 hj with hj | rfl
    · exact h.past j hj
    · exact Nat.le_of_eq heq.symm
  · rw [now_settle, hnext]
    exact Nat.le_add_right _ _

/-- When everything has happened that is due, the next turn is later. -/
theorem OnSchedule.settle (h : OnSchedule id flowName period start ts k f) (hperiod : 1 ≤ period) :
    ∃ k', OnSchedule id flowName period start (ts ++ f.settleTurns) k' f.settle ∧
      f.now < start + k' * period := by
  rcases Nat.lt_or_eq_of_le h.early with hlt | heq
  · exact ⟨k, h.settle_of_lt hlt, hlt⟩
  · refine ⟨k + 1, h.settle_of_eq hperiod heq, ?_⟩
    rw [Nat.succ_mul]
    omega

theorem OnSchedule.nextInstant (h : OnSchedule id flowName period start ts k f)
    (hperiod : 1 ≤ period) :
    ∃ k', OnSchedule id flowName period start (ts ++ f.settleTurns) k' f.nextInstant := by
  obtain ⟨k', h', hlt⟩ := h.settle hperiod
  have hnow := now_settle f
  refine ⟨k', h'.prompt, h'.named, h'.taken, h'.alone, h'.instants, h'.tells, ?_, hlt⟩
  intro j hj
  have := h'.past j hj
  exact Nat.le_succ_of_le (hnow ▸ this)

theorem OnSchedule.advance (h : OnSchedule id flowName period start ts k f) (hperiod : 1 ≤ period)
    (n : Nat) :
    ∃ k', OnSchedule id flowName period start (ts ++ f.advanceTurns n) k' (f.advance n) := by
  induction n generalizing f ts k with
  | zero =>
    rw [advanceTurns, List.append_nil, Feed.advance]
    exact ⟨k, h⟩
  | succ n ih =>
    obtain ⟨k', h'⟩ := h.nextInstant hperiod
    rw [advanceTurns, ← List.append_assoc, advance_succ]
    exact ih h'

/-- Ending other subscriptions changes nothing for this one. -/
theorem OnSchedule.cancel (h : OnSchedule id flowName period start ts k f) {ids : List Nat}
    (hids : ids.contains id = false) : OnSchedule id flowName period start ts k (f.cancel ids) := by
  have hothers : ((f.cancel ids).subscriptions.filter fun s => s.id = id) =
      f.subscriptions.filter fun s => s.id = id := by
    rw [Feed.cancel, List.filter_filter]
    apply List.filter_congr
    intro s _
    by_cases hs : s.id = id
    · subst hs
      simpa using hids
    · simp [hs]
  have hnothing : turnsBy id ([] : List (Turn σ)) = [] := rfl
  have hcongr := h.congr hnothing (g := f.cancel ids) rfl rfl h.named (Nat.le_refl _) hothers
  rwa [List.append_nil] at hcongr

theorem OnSchedule.perform (h : OnSchedule id flowName period start ts k f) (hperiod : 1 ≤ period)
    {a : Move} (ha : a.ends id = false) :
    ∃ k', OnSchedule id flowName period start (ts ++ f.moveTurns a) k' (f.perform a) := by
  cases a with
  | advance n => exact h.advance hperiod n
  | settle =>
    obtain ⟨k', h', -⟩ := h.settle hperiod
    exact ⟨k', h'⟩
  | call c =>
    exact ⟨k, h.congr rfl rfl rfl (Monitor.isNamed_perform h.named c) (Nat.le_refl _) rfl⟩
  | subscribe name ms =>
    refine ⟨k, h.congr rfl rfl rfl h.named (Nat.le_succ _) ?_⟩
    have hne : f.nextId ≠ id := Nat.ne_of_gt h.taken
    simp [Feed.perform, Feed.subscribe, List.filter_append, hne]
  | cancel ids => exact ⟨k, (List.append_nil ts).symm ▸ h.cancel ha⟩
  | unsubscribe ids =>
    rw [Feed.perform, moveTurns, unsubscribe]
    split
    · obtain ⟨k', h', -⟩ := (h.cancel ha).settle hperiod
      exact ⟨k', h'⟩
    · rw [List.append_nil]
      exact ⟨k, h⟩

theorem OnSchedule.performAll (h : OnSchedule id flowName period start ts k f)
    (hperiod : 1 ≤ period) {moves : List Move} (hmoves : ∀ a ∈ moves, a.ends id = false) :
    ∃ k', OnSchedule id flowName period start (ts ++ f.turns moves) k' (f.performAll moves) := by
  induction moves generalizing f ts k with
  | nil =>
    rw [turns, List.append_nil]
    exact ⟨k, h⟩
  | cons a moves ih =>
    obtain ⟨k', h'⟩ := h.perform hperiod (hmoves a List.mem_cons_self)
    rw [turns, ← List.append_assoc]
    exact ih h' fun b hb => hmoves b (List.mem_cons_of_mem _ hb)

end Run

/-! ## The pace -/

/-- How a subscription to a flow fares that begins at an instant, in a feed which it is part of,
during moves. -/
structure KeepsPace (f : Feed σ) (id : Nat) (flowName : String) (period start : Nat)
    (moves : List Move) : Prop where
  /-- It has had a turn at each of the instants that have passed, and at no other. -/
  instants : ∃ k,
    (turnsBy id (f.turns moves)).map (fun t => t.before.now) =
      (List.range k).map (fun j => start + j * period) ∧
    (∀ j < k, start + j * period ≤ (f.performAll moves).now) ∧
    ∀ j, start + j * period < (f.performAll moves).now → j < k
  tells : ∀ t ∈ turnsBy id (f.turns moves), t.Tells flowName
  heard : (f.performAll moves).heard id = (turnsBy id (f.turns moves)).flatMap Turn.news
  /-- Once it has been ended, it has no more turns. -/
  ended : ∀ (a : Move) (later : List Move), a.ends id = true →
    turnsBy id ((f.performAll moves).turns (a :: later)) = []
  /-- It makes no difference in how many steps time passes. -/
  split : ∀ (before after : List Move) (m n : Nat), moves = before ++ .advance (m + n) :: after →
    f.turns moves = f.turns (before ++ .advance m :: .advance n :: after) ∧
    f.performAll moves = f.performAll (before ++ .advance m :: .advance n :: after)

theorem source_perform (f : Feed σ) (a : Move) : (f.perform a).source = f.source := by
  cases a with
  | advance n => exact (sameFrame_advance n f).source
  | settle => exact (sameFrame_settle f).source
  | call c => rfl
  | subscribe name ms => rfl
  | cancel ids => rfl
  | unsubscribe ids => exact (sameFrame_unsubscribe f ids).source

theorem isNamed_perform (h : f.monitor.IsNamed) (a : Move) : (f.perform a).monitor.IsNamed := by
  cases a with
  | advance n => exact Monitor.isNamed_congr (sameFrame_advance n f).registry h
  | settle => exact Monitor.isNamed_congr (sameFrame_settle f).registry h
  | call c => exact Monitor.isNamed_perform h c
  | subscribe name ms => exact h
  | cancel ids => exact h
  | unsubscribe ids => exact Monitor.isNamed_congr (sameFrame_unsubscribe f ids).registry h

theorem source_performAll (f : Feed σ) (moves : List Move) :
    (f.performAll moves).source = f.source := by
  induction moves generalizing f with
  | nil => rfl
  | cons a moves ih => exact (ih (f.perform a)).trans (source_perform f a)

theorem isNamed_performAll (h : f.monitor.IsNamed) (moves : List Move) :
    (f.performAll moves).monitor.IsNamed := by
  induction moves generalizing f with
  | nil => exact h
  | cons a moves ih => exact ih (isNamed_perform h a)

/-- A subscription that has just begun is due at once. -/
theorem onSchedule_subscribe (hprompt : f.source.IsPrompt) (hnamed : f.monitor.IsNamed)
    (hnumbered : f.Numbered) (flowName : String) (period : Nat) :
    OnSchedule f.nextId flowName period f.now [] 0 (f.subscribe flowName period).2 where
  prompt := hprompt
  named := hnamed
  taken := Nat.lt_succ_self _
  alone := by
    have hothers : (f.subscriptions.filter fun s => s.id = f.nextId) = [] := by
      rw [List.filter_eq_nil_iff]
      intro s hs
      simpa using Nat.ne_of_lt (hnumbered.subscriptions s hs)
    simp [Feed.subscribe, List.filter_append, hothers]
  instants := rfl
  tells := nofun
  past := nofun
  early := Nat.le_add_right _ _

/-- Whatever has happened before and happens in the meantime, a subscription with a period keeps its
pace until it is ended, if its source answers at once. -/
theorem keepsPace (source : Source σ) (memory : σ) (hprompt : source.IsPrompt)
    (earlier : List Move) (flowName : String) (period : Nat) (hperiod : 1 ≤ period)
    (moves : List Move)
    (hmoves : ∀ a ∈ moves,
      a.ends ((start Monitor.empty source memory).performAll earlier).nextId = false) :
    KeepsPace (((start Monitor.empty source memory).performAll earlier).subscribe flowName period).2
      ((start Monitor.empty source memory).performAll earlier).nextId flowName period
      ((start Monitor.empty source memory).performAll earlier).now moves := by
  have hsource := source_performAll (start Monitor.empty source memory) earlier
  have hnamed := isNamed_performAll (f := start Monitor.empty source memory)
    Monitor.isNamed_empty earlier
  have hnumbered := (numbered_start Monitor.empty source memory).performAll earlier
  generalize (start Monitor.empty source memory).performAll earlier = f at *
  have hfirst := onSchedule_subscribe (hsource ▸ hprompt) hnamed hnumbered flowName period
  obtain ⟨k, h⟩ := hfirst.performAll hperiod hmoves
  rw [List.nil_append] at h
  constructor
  · refine ⟨k, h.instants, h.past, ?_⟩
    intro j hj
    have hlt : f.now + j * period < f.now + k * period := Nat.lt_of_lt_of_le hj h.early
    exact Nat.lt_of_mul_lt_mul_right (Nat.lt_of_add_lt_add_left hlt)
  · exact h.tells
  · have hnothing : (f.subscribe flowName period).2.heard f.nextId = [] := hnumbered.heard_nextId
    rw [heard_performAll, hnothing, List.nil_append]
  · intro a later ha
    obtain ⟨hgone, hturns⟩ := gone_of_ends h.taken ha
    rw [turns, turnsBy_append, hturns, (hgone.performAll later).2, List.nil_append]
  · rintro before after m n rfl
    exact ⟨turns_split _ before after m n, performAll_split _ before after m n⟩

/-- The simulation answers at once. -/
theorem isPrompt_mock (now : Time.Instant) (pollInterval : Option Nat) :
    (Mock.source now pollInterval).IsPrompt where
  delay _ _ := rfl
  named _ _ _ h := by
    cases h
    rfl

/-- A flow with a chain of two sub-stages. -/
def chained : Registration :=
  ⟨"A", none, Table.empty, .text "Sub-stages\nAWS\nS\x7ba->b\x7d", default⟩

/-- The statuses that a listener is shown, if there was an event. -/
def statuses? : Update → Option (List Status)
  | .status _ map => some (map.entries.map fun e => e.2.status)
  | .error _ => none

/-- A subscription that begins 3 ms after the start. The flow is removed between the third turn and
the fourth, which fails for that reason. -/
theorem keepsPace_mock :
    let f := (start Monitor.empty (Mock.source default none) NameMap.empty).performAll
      [.call (.register chained), .advance 3]
    let moves : List Move := [.advance 12, .call (.remove "A"), .advance 5]
    (turnsBy 0 ((f.subscribe "A" 5).2.turns moves)).map (fun t => t.before.now) = [3, 8, 13, 18] ∧
      (((f.subscribe "A" 5).2.performAll moves).heard 0).map statuses? =
        [some [.running, .pending], some [.completed, .running], some [.completed, .completed],
          none] := by
  intro f moves
  have h : KeepsPace (f.subscribe "A" 5).2 0 "A" 5 3 moves :=
    keepsPace (Mock.source default none) NameMap.empty (isPrompt_mock _ _)
      [.call (.register chained), .advance 3] "A" 5 (by decide) moves (by decide)
  constructor
  · obtain ⟨k, hinstants, hpast, hnext⟩ := h.instants
    have hsome : 3 < k := hnext 3 (by decide +kernel)
    have hall : ¬ 4 < k := fun h => absurd (hpast 4 h) (by decide +kernel)
    obtain rfl : k = 4 := by omega
    exact hinstants
  · rw [h.heard]
    decide +kernel

end Feed

end Flowline
