import Flowline.Proofs.Feed.Turns

/-!
# Instants

At an instant everything happens that is due, and then nothing is due (`settle_settle`). Letting
time pass is going from one instant to the next, whether or not something is due (`advance_succ`),
so it makes no difference in how many steps that happens (`advance_add`, `advanceTurns_add`).
Subscriptions go on, but for those without a period (`SameSubscriptions`).
-/

namespace Flowline.Feed

variable {σ : Type} {f g h : Feed σ} {s : Subscription}

/-! ## Settling -/

/-- The feed without the subscriptions that are due. -/
def idle (f : Feed σ) : Feed σ :=
  { f with subscriptions := f.subscriptions.filter fun s => !s.isDue f.now }

/-- The subscriptions that are due. -/
def due (f : Feed σ) : List Subscription := f.subscriptions.filter (Subscription.isDue f.now)

theorem settle_eq (f : Feed σ) : f.settle = f.idle.actAll f.due := by
  rw [settle, List.partition_eq_filter_filter]
  rfl

theorem settleTurns_eq (f : Feed σ) : f.settleTurns = f.idle.turnsAll f.due := by
  rw [settleTurns, List.partition_eq_filter_filter]
  rfl

theorem filter_due (p : Subscription → Bool) (f : Feed σ) :
    f.due.filter p = (f.subscriptions.filter p).filter (Subscription.isDue f.now) := by
  rw [due, List.filter_filter, List.filter_filter]
  apply List.filter_congr
  intro s _
  exact Bool.and_comm _ _

theorem filter_idle (p : Subscription → Bool) (f : Feed σ) :
    f.idle.subscriptions.filter p =
      (f.subscriptions.filter p).filter fun s => !s.isDue f.now := by
  rw [idle, List.filter_filter, List.filter_filter]
  apply List.filter_congr
  intro s _
  exact Bool.and_comm _ _

theorem sameFrame_settle (f : Feed σ) : SameFrame f f.settle := by
  rw [settle_eq]
  have hidle : SameFrame f f.idle := ⟨rfl, rfl, rfl⟩
  exact hidle.trans (sameFrame_actAll _ _)

theorem now_settle (f : Feed σ) : f.settle.now = f.now := by
  rw [settle_eq]
  exact now_actAll f.idle f.due

/-- A subscription that is due takes one turn, unless another one has its id. -/
theorem exists_turn_of_due (hperiod : s.period ≠ 0)
    (hdue : (f.due.filter fun r => r.id = s.id) = [s]) :
    ∃ g : Feed σ, SameFrame f g ∧ g.now = f.now ∧
      turnsBy s.id f.settleTurns = [⟨g, s, (g.act s).1⟩] ∧
      (f.settle.subscriptions.filter fun r => r.id = s.id) =
        (f.idle.subscriptions.filter fun r => r.id = s.id) ++
          [{ s with phase := (g.act s).2 }] := by
  obtain ⟨before, after, hsplit, hbefore, -, hafter⟩ := List.filter_eq_cons_iff.1 hdue
  have hbefore' : ∀ r ∈ before, r.id ≠ s.id := fun r hr => by simpa using hbefore r hr
  have hafter' : ∀ r ∈ after, r.id ≠ s.id := by
    simpa only [List.filter_eq_nil_iff, decide_eq_true_eq] using hafter
  have hidle : SameFrame f f.idle := ⟨rfl, rfl, rfl⟩
  -- What the subscription finds when it is its turn.
  refine ⟨f.idle.actAll before, hidle.trans (sameFrame_actAll _ _), now_actAll _ _, ?_, ?_⟩
  · rw [settleTurns_eq, hsplit, turnsAll_append, turnsBy_append, turnsBy_turnsAll hbefore',
      turnsAll, if_neg hperiod, turnsBy, List.filter_cons_of_pos (by simp), ← turnsBy,
      turnsBy_turnsAll hafter', List.nil_append]
  · rw [settle_eq, hsplit, actAll_append, actAll_cons, if_neg hperiod, filter_actAll hafter',
      subscriptions_takeTurn, List.filter_append, filter_actAll hbefore']
    simp

theorem told_settle (f : Feed σ) :
    f.settle.told = f.told ++ f.settleTurns.flatMap Turn.told := by
  rw [settle_eq, settleTurns_eq]
  exact told_actAll f.idle f.due

theorem due_eq_nil (hquiet : ∀ s ∈ f.subscriptions, f.now < s.phase.due) : f.due = [] := by
  rw [due, List.filter_eq_nil_iff]
  intro s hs
  have hlt := hquiet s hs
  simp only [Subscription.isDue, decide_eq_true_eq]
  omega

theorem settle_of_quiet (hquiet : ∀ s ∈ f.subscriptions, f.now < s.phase.due) : f.settle = f := by
  have hidle : f.idle = f := by
    rw [idle, List.filter_eq_self.2]
    intro s hs
    have hlt := hquiet s hs
    simp only [Subscription.isDue, Bool.not_eq_true', decide_eq_false_iff_not]
    omega
  rw [settle_eq, due_eq_nil hquiet, hidle]
  rfl

theorem mem_subscriptions_settle (hs : s ∈ f.settle.subscriptions) :
    ∃ r ∈ f.subscriptions, s = { r with phase := s.phase } := by
  rw [settle_eq] at hs
  rcases mem_subscriptions_actAll hs with h | ⟨r, hr, h⟩
  · exact ⟨s, (List.mem_filter.1 h).1, rfl⟩
  · exact ⟨r, (List.mem_filter.1 hr).1, h⟩

theorem subscription_mem_of_mem_settleTurns {t : Turn σ} (ht : t ∈ f.settleTurns) :
    t.subscription ∈ f.subscriptions := by
  rw [settleTurns_eq] at ht
  exact (List.mem_filter.1 (subscription_mem_of_mem_turnsAll ht)).1

theorem ticks_of_le {n tick : Nat} (h : tick ≤ f.now) :
    ticks s (n + 1) f (.waiting tick) = ticks s n (f.tick s tick).1 (f.tick s tick).2 := if_pos h

/-- The phase ends later than now, at the latest after some more ticks. -/
def Catches (n now : Nat) : Phase → Prop
  | .waiting tick => now < tick + n
  | .fetching _ finish _ => now < finish

/-- A tick is caught up with at once if it is late by more than the tolerance. -/
theorem catches_tick (hs : s.period ≠ 0) {n tick : Nat}
    (h : f.now < tick + (n + 1) ∨ tick + tolerance < f.now) :
    Catches n f.now (f.tick s tick).2 := by
  have hafter : f.now < tickAfter s.period tick f.now + n := by
    unfold tickAfter
    split
    · omega
    · omega
  cases hsnapshot : f.monitor.snapshot? s.flowName with
  | none =>
    rw [tick_of_none hsnapshot]
    exact hafter
  | some snapshot =>
    by_cases hdelay : (f.source.fetch f.memory snapshot).1.delay = 0
    · rw [tick_of_delay_eq hsnapshot hdelay]
      exact hafter
    · rw [tick_of_delay_ne hsnapshot hdelay]
      exact Nat.lt_add_of_pos_right (Nat.pos_of_ne_zero hdelay)

theorem lt_due_ticks (hs : s.period ≠ 0) {n : Nat} {phase : Phase}
    (h : Catches n f.now phase) : f.now < (ticks s n f phase).2.due := by
  induction n generalizing f phase with
  | zero =>
    cases phase with
    | waiting tick => exact h
    | fetching next finish result => exact h
  | succ n ih =>
    cases phase with
    | fetching next finish result => exact h
    | waiting tick =>
      by_cases hle : tick ≤ f.now
      · have hnow := (serves_tick f s tick).now
        rw [ticks_of_le hle, ← hnow]
        apply ih
        rw [hnow]
        exact catches_tick hs (.inl h)
      · rw [ticks, if_neg hle]
        exact Nat.lt_of_not_le hle

/-- No more ticks than the tolerance and one are made up for, so none is left over. -/
theorem lt_due_ticks_tolerance (hs : s.period ≠ 0) (tick : Nat) :
    f.now < (ticks s (tolerance + 1) f (.waiting tick)).2.due := by
  by_cases hle : tick ≤ f.now
  · have hnow := (serves_tick f s tick).now
    rw [ticks_of_le hle, ← hnow]
    apply lt_due_ticks hs
    rw [hnow]
    exact catches_tick hs (by omega)
  · rw [ticks, if_neg hle]
    exact Nat.lt_of_not_le hle

theorem lt_due_act (f : Feed σ) (hs : s.period ≠ 0) : f.now < (f.act s).2.due := by
  unfold act
  split
  · next tick hphase =>
    rw [hphase]
    exact lt_due_ticks_tolerance hs tick
  · next next finish result hphase =>
    split
    · have hnow : (f.deliver s.id result).now = f.now := (serves_deliver f s.id result).now
      rw [← hnow]
      exact lt_due_ticks_tolerance hs next
    · next hnot =>
      rw [hphase]
      exact Nat.lt_of_not_le hnot

/-- When everything has happened that is due, nothing is due. -/
theorem lt_due_settle (hs : s ∈ f.settle.subscriptions) : f.now < s.phase.due := by
  have hall : ∀ (ss : List Subscription) (g : Feed σ), g.now = f.now →
      (∀ s ∈ g.subscriptions, f.now < s.phase.due) →
      ∀ s ∈ (g.actAll ss).subscriptions, f.now < s.phase.due := by
    intro ss
    induction ss with
    | nil => exact fun g _ hg => hg
    | cons r ss ih =>
      intro g hnow hg
      rw [actAll_cons]
      split
      · exact ih g hnow hg
      · next hr =>
        apply ih _ ((now_takeTurn g r).trans hnow)
        intro s hs
        rw [subscriptions_takeTurn, List.mem_append, List.mem_singleton] at hs
        rcases hs with hs | rfl
        · exact hg s hs
        · exact hnow ▸ lt_due_act g hr
  rw [settle_eq] at hs
  apply hall f.due f.idle rfl _ s hs
  intro r hr
  have hnot := (List.mem_filter.1 hr).2
  simp only [Subscription.isDue, Bool.not_eq_true', decide_eq_false_iff_not] at hnot
  omega

theorem settle_settle (f : Feed σ) : f.settle.settle = f.settle := by
  apply settle_of_quiet
  intro s hs
  rw [now_settle]
  exact lt_due_settle hs

/-! ## Letting time pass -/

/-- Going on to an instant before which nothing is due is going on from instant to instant. -/
theorem advance_succ (n : Nat) (f : Feed σ) : f.advance (n + 1) = f.nextInstant.advance n := by
  rw [advance]
  split
  · next hquiet =>
    have hlt : ∀ s ∈ f.subscriptions, f.now + n < s.phase.due := by
      simpa [isQuiet, Subscription.isDue] using hquiet
    have hsettle : f.settle = f := settle_of_quiet fun s hs => by have := hlt s hs; omega
    have hnext : f.nextInstant = { f with now := f.now + 1 } := by rw [nextInstant, hsettle]
    rw [hnext]
    cases n with
    | zero => rfl
    | succ n =>
      have hagain : isQuiet { f with now := f.now + 1 } (f.now + 1 + n) = true := by
        rw [← hquiet]
        exact congrArg f.isQuiet (by omega)
      rw [advance, if_pos hagain]
      have hsum : f.now + (n + 1 + 1) = f.now + 1 + (n + 1) := by omega
      rw [hsum]
  · rfl

/-- Before anything is due nothing happens. -/
theorem advance_of_quiet {n : Nat} (h : ∀ s ∈ f.subscriptions, f.now + n ≤ s.phase.due) :
    f.advance n = { f with now := f.now + n } := by
  cases n with
  | zero => rfl
  | succ n =>
    have hquiet : f.isQuiet (f.now + n) = true := by
      simpa [isQuiet, Subscription.isDue, Nat.lt_iff_add_one_le, Nat.add_assoc] using h
    rw [advance, if_pos hquiet]

/-- Without subscriptions nothing happens. -/
theorem advance_of_subscriptions_eq_nil (h : f.subscriptions = []) (n : Nat) :
    f.advance n = { f with now := f.now + n } :=
  advance_of_quiet fun _ hs => absurd (h ▸ hs) List.not_mem_nil

theorem advance_add (m n : Nat) (f : Feed σ) : f.advance (m + n) = (f.advance m).advance n := by
  induction m generalizing f with
  | zero => rw [Nat.zero_add, advance]
  | succ m ih => rw [Nat.succ_add, advance_succ, advance_succ, ih]

theorem advanceTurns_add (m n : Nat) (f : Feed σ) :
    f.advanceTurns (m + n) = f.advanceTurns m ++ (f.advance m).advanceTurns n := by
  induction m generalizing f with
  | zero => rw [Nat.zero_add, advanceTurns, advance, List.nil_append]
  | succ m ih =>
    rw [Nat.succ_add, advanceTurns, advanceTurns, advance_succ, ih, List.append_assoc]

theorem sameFrame_advance (n : Nat) (f : Feed σ) : SameFrame f (f.advance n) := by
  induction n generalizing f with
  | zero => exact SameFrame.refl f
  | succ n ih =>
    have hnext : SameFrame f f.nextInstant := by
      have hsettle := sameFrame_settle f
      exact ⟨hsettle.source, hsettle.nextId, hsettle.registry⟩
    rw [advance_succ]
    exact hnext.trans (ih _)

theorem told_advance (n : Nat) (f : Feed σ) :
    (f.advance n).told = f.told ++ (f.advanceTurns n).flatMap Turn.told := by
  induction n generalizing f with
  | zero => simp [advance, advanceTurns]
  | succ n ih =>
    have hnext : f.nextInstant.told = f.told ++ f.settleTurns.flatMap Turn.told := told_settle f
    rw [advance_succ, advanceTurns, ih, hnext, List.flatMap_append, List.append_assoc]

/-! ## Which subscriptions are going on -/

/-- Two feeds have the same subscriptions, but for those without a period, which may have ended. -/
structure SameSubscriptions (f g : Feed σ) : Prop where
  back : ∀ s ∈ g.subscriptions, ∃ r ∈ f.subscriptions, s = { r with phase := s.phase }
  forth : ∀ s ∈ f.subscriptions, s.period ≠ 0 →
    ∃ r ∈ g.subscriptions, r.id = s.id ∧ r.flowName = s.flowName ∧ r.period = s.period
  nodup : (f.subscriptions.map Subscription.flowName).Nodup →
    (g.subscriptions.map Subscription.flowName).Nodup

theorem SameSubscriptions.refl (f : Feed σ) : SameSubscriptions f f :=
  ⟨fun s hs => ⟨s, hs, rfl⟩, fun s hs _ => ⟨s, hs, rfl, rfl, rfl⟩, id⟩

theorem SameSubscriptions.trans (hfg : SameSubscriptions f g) (hgh : SameSubscriptions g h) :
    SameSubscriptions f h := by
  refine ⟨?_, ?_, fun hf => hgh.nodup (hfg.nodup hf)⟩
  · intro s hs
    obtain ⟨r, hr, hsr⟩ := hgh.back s hs
    obtain ⟨q, hq, hrq⟩ := hfg.back r hr
    exact ⟨q, hq, by rw [hsr, hrq]⟩
  · intro s hs hperiod
    obtain ⟨r, hr, hid, hname, hsame⟩ := hfg.forth s hs hperiod
    obtain ⟨q, hq, hid', hname', hsame'⟩ := hgh.forth r hr (hsame ▸ hperiod)
    exact ⟨q, hq, hid'.trans hid, hname'.trans hname, hsame'.trans hsame⟩

/-- Subscriptions that act keep all but their phase, and those without a period end. -/
theorem map_subscriptions_actAll {α : Type} (key : Subscription → α)
    (hkey : ∀ s phase, key { s with phase := phase } = key s) (f : Feed σ)
    (ss : List Subscription) : (f.actAll ss).subscriptions.map key =
      f.subscriptions.map key ++ (ss.filter fun s => s.period ≠ 0).map key := by
  induction ss generalizing f with
  | nil => simp [actAll]
  | cons s ss ih =>
    rw [actAll_cons]
    split
    · next hs => simp [ih, hs]
    · next hs => simp [ih, hs, subscriptions_takeTurn, hkey]

theorem sameSubscriptions_settle (f : Feed σ) : SameSubscriptions f f.settle := by
  refine ⟨fun s hs => mem_subscriptions_settle hs, ?_, ?_⟩
  · intro s hs hperiod
    let key : Subscription → Nat × String × Nat := fun s => (s.id, s.flowName, s.period)
    have hmem : key s ∈ f.settle.subscriptions.map key := by
      rw [settle_eq, map_subscriptions_actAll key (fun _ _ => rfl), List.mem_append]
      by_cases hdue : s.isDue f.now = true
      · refine .inr (List.mem_map_of_mem (List.mem_filter.2 ⟨?_, by simpa⟩))
        exact List.mem_filter.2 ⟨hs, hdue⟩
      · exact .inl (List.mem_map_of_mem (List.mem_filter.2 ⟨hs, by simpa using hdue⟩))
    obtain ⟨r, hr, hkey⟩ := List.mem_map.1 hmem
    obtain ⟨hid, hrest⟩ := Prod.mk.inj hkey
    exact ⟨r, hr, hid, Prod.mk.inj hrest⟩
  · intro hf
    rw [settle_eq, map_subscriptions_actAll Subscription.flowName (fun _ _ => rfl),
      ← List.map_append]
    have hperm : (f.due ++ f.idle.subscriptions).Perm f.subscriptions :=
      List.filter_append_perm (Subscription.isDue f.now) f.subscriptions
    have hsub : (f.idle.subscriptions ++ f.due.filter fun s => s.period ≠ 0).Sublist
        (f.idle.subscriptions ++ f.due) := List.Sublist.append_left List.filter_sublist _
    have hall : ((f.idle.subscriptions ++ f.due).map Subscription.flowName).Nodup :=
      ((List.perm_append_comm.trans hperm).map _).nodup_iff.2 hf
    exact (hsub.map _).nodup hall

theorem sameSubscriptions_advance (n : Nat) (f : Feed σ) : SameSubscriptions f (f.advance n) := by
  induction n generalizing f with
  | zero => exact SameSubscriptions.refl f
  | succ n ih =>
    have hsettle := sameSubscriptions_settle f
    have hnext : SameSubscriptions f f.nextInstant := ⟨hsettle.back, hsettle.forth, hsettle.nodup⟩
    rw [advance_succ]
    exact hnext.trans (ih _)

theorem cancel_of_not_live {ended : List Nat} (hlive : ended.any f.isLive = false) :
    f.cancel ended = f := by
  have hall : ∀ s ∈ f.subscriptions, s.id ∉ ended := by
    intro s hs hid
    have hyes : f.isLive s.id = true := List.any_eq_true.2 ⟨s, hs, by simp⟩
    exact List.any_eq_false.1 hlive s.id hid hyes
  rw [cancel, List.filter_eq_self.2]
  intro s hs
  simpa using hall s hs

/-- Ending subscriptions lets the others go on. -/
theorem sameSubscriptions_unsubscribe (f : Feed σ) (ended : List Nat) :
    SameSubscriptions (f.cancel ended) (f.unsubscribe ended) := by
  unfold unsubscribe
  split
  · exact sameSubscriptions_settle (f.cancel ended)
  · next hlive =>
    rw [cancel_of_not_live (by simpa using hlive)]
    exact SameSubscriptions.refl f

theorem sameFrame_unsubscribe (f : Feed σ) (ended : List Nat) :
    SameFrame f (f.unsubscribe ended) := by
  unfold unsubscribe
  split
  · have hcancel : SameFrame f (f.cancel ended) := ⟨rfl, rfl, rfl⟩
    exact hcancel.trans (sameFrame_settle (f.cancel ended))
  · exact SameFrame.refl f

theorem now_unsubscribe (f : Feed σ) (ended : List Nat) : (f.unsubscribe ended).now = f.now := by
  unfold unsubscribe
  split
  · exact now_settle (f.cancel ended)
  · rfl

theorem nextId_unsubscribe (f : Feed σ) (ended : List Nat) :
    (f.unsubscribe ended).nextId = f.nextId := (sameFrame_unsubscribe f ended).nextId

end Flowline.Feed
