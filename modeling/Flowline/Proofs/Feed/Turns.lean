import Flowline.Feed.Schedule

/-!
# The turns of subscriptions

A turn changes little: it tells the listener of the subscription whose turn it is something, it
merges into the board, and it sets the timer of that subscription (`serves_act`). Of subscriptions
that take turns one after the other, each is left alone by the others (`filter_actAll`).
-/

namespace Flowline.Feed

variable {σ : Type} {f g h : Feed σ} {id : Nat} {s : Subscription}

/-! ## One turn -/

/-- What neither turns nor time change. -/
structure SameFrame (f g : Feed σ) : Prop where
  source : g.source = f.source
  nextId : g.nextId = f.nextId
  registry : g.monitor.registry = f.monitor.registry

theorem SameFrame.refl (f : Feed σ) : SameFrame f f := ⟨rfl, rfl, rfl⟩

theorem SameFrame.trans (hfg : SameFrame f g) (hgh : SameFrame g h) : SameFrame f h :=
  ⟨hgh.source.trans hfg.source, hgh.nextId.trans hfg.nextId, hgh.registry.trans hfg.registry⟩

/-- What a subscription does while it acts: it tells its own listener something. -/
structure Serves (id : Nat) (f g : Feed σ) : Prop extends SameFrame f g where
  now : g.now = f.now
  subscriptions : g.subscriptions = f.subscriptions
  told : ∃ news : List Update, g.told = f.told ++ news.map fun u => (id, u)

theorem Serves.refl (id : Nat) (f : Feed σ) : Serves id f f :=
  ⟨SameFrame.refl f, rfl, rfl, [], by simp⟩

theorem Serves.trans (hfg : Serves id f g) (hgh : Serves id g h) : Serves id f h := by
  obtain ⟨news, hnews⟩ := hfg.told
  obtain ⟨later, hlater⟩ := hgh.told
  refine ⟨hfg.toSameFrame.trans hgh.toSameFrame, hgh.now.trans hfg.now,
    hgh.subscriptions.trans hfg.subscriptions, news ++ later, ?_⟩
  rw [hlater, hnews, List.map_append, List.append_assoc]

theorem serves_tell (f : Feed σ) (id : Nat) (u : Update) : Serves id f (f.tell id u) :=
  ⟨⟨rfl, rfl, rfl⟩, rfl, rfl, [u], rfl⟩

/-- The feed with an event merged. -/
def merged (f : Feed σ) (event : Event) : Feed σ :=
  { f with monitor := { f.monitor with board := f.monitor.board.apply event } }

theorem deliver_of_contains {event : Event} (hc : f.monitor.contains event.flowName = true)
    (id : Nat) : f.deliver id (.ok event) =
      (f.merged event).tell id (.status event (f.monitor.board.mapAfter event)) := by
  have happly : f.monitor.apply event = .ok (f.monitor.board.mapAfter event,
      { f.monitor with board := f.monitor.board.apply event }) := if_pos hc
  simp only [deliver, happly]
  rfl

theorem deliver_of_not_contains {event : Event} (hc : f.monitor.contains event.flowName = false)
    (id : Nat) :
    f.deliver id (.ok event) = f.tell id (.error (.flowNotRegistered event.flowName)) := by
  have happly : f.monitor.apply event = .error (.flowNotRegistered event.flowName) := by
    apply if_neg
    rw [← Monitor.contains, hc]
    exact Bool.false_ne_true
  simp only [deliver, happly]

theorem serves_deliver (f : Feed σ) (id : Nat) (result : Except FeedError Event) :
    Serves id f (f.deliver id result) := by
  cases result with
  | error e => exact serves_tell f id (.error e)
  | ok event =>
    cases hc : f.monitor.contains event.flowName with
    | true =>
      rw [deliver_of_contains hc]
      exact ⟨⟨rfl, rfl, rfl⟩, rfl, rfl, [_], rfl⟩
    | false =>
      rw [deliver_of_not_contains hc]
      exact serves_tell f id _

/-- The feed after a fetch has begun. -/
def asked (f : Feed σ) (snapshot : Snapshot) : Feed σ :=
  { f with memory := (f.source.fetch f.memory snapshot).2 }

section Tick

variable {snapshot : Snapshot}

theorem tick_of_none (hs : f.monitor.snapshot? s.flowName = none) (tick : Nat) :
    f.tick s tick = (f.tell s.id (.error (.flowNotRegistered s.flowName)),
      .waiting (tickAfter s.period tick f.now)) := by
  simp only [Feed.tick, hs]

theorem tick_of_delay_eq (hs : f.monitor.snapshot? s.flowName = some snapshot)
    (hdelay : (f.source.fetch f.memory snapshot).1.delay = 0) (tick : Nat) :
    f.tick s tick =
      ((f.asked snapshot).deliver s.id (f.source.fetch f.memory snapshot).1.result,
        .waiting (tickAfter s.period tick f.now)) := by
  simp only [Feed.tick, hs, hdelay, if_true]
  rfl

theorem tick_of_delay_ne (hs : f.monitor.snapshot? s.flowName = some snapshot)
    (hdelay : (f.source.fetch f.memory snapshot).1.delay ≠ 0) (tick : Nat) :
    f.tick s tick = (f.asked snapshot, .fetching (tickAfter s.period tick f.now)
      (f.now + (f.source.fetch f.memory snapshot).1.delay)
      (f.source.fetch f.memory snapshot).1.result) := by
  simp only [Feed.tick, hs, if_neg hdelay]
  rfl

end Tick

theorem serves_tick (f : Feed σ) (s : Subscription) (tick : Nat) :
    Serves s.id f (f.tick s tick).1 := by
  cases hs : f.monitor.snapshot? s.flowName with
  | none =>
    rw [tick_of_none hs]
    exact serves_tell f s.id _
  | some snapshot =>
    have hasked : Serves s.id f (f.asked snapshot) :=
      ⟨⟨rfl, rfl, rfl⟩, rfl, rfl, [], by simp [asked]⟩
    by_cases hdelay : (f.source.fetch f.memory snapshot).1.delay = 0
    · rw [tick_of_delay_eq hs hdelay]
      exact hasked.trans (serves_deliver _ s.id _)
    · rw [tick_of_delay_ne hs hdelay]
      exact hasked

theorem serves_ticks (s : Subscription) (n : Nat) (f : Feed σ) (phase : Phase) :
    Serves s.id f (ticks s n f phase).1 := by
  induction n generalizing f phase with
  | zero => exact Serves.refl s.id f
  | succ n ih =>
    cases phase with
    | fetching next finish result => exact Serves.refl s.id f
    | waiting tick =>
      rw [ticks]
      split
      · exact (serves_tick f s tick).trans (ih _ _)
      · exact Serves.refl s.id f

theorem serves_act (f : Feed σ) (s : Subscription) : Serves s.id f (f.act s).1 := by
  unfold act
  split
  · exact serves_ticks s _ f s.phase
  · split
    · exact (serves_deliver f s.id _).trans (serves_ticks s _ _ _)
    · exact Serves.refl s.id f

theorem sameFrame_takeTurn (f : Feed σ) (s : Subscription) : SameFrame f (f.takeTurn s) :=
  ⟨(serves_act f s).source, (serves_act f s).nextId, (serves_act f s).registry⟩

theorem now_takeTurn (f : Feed σ) (s : Subscription) : (f.takeTurn s).now = f.now :=
  (serves_act f s).now

theorem subscriptions_takeTurn (f : Feed σ) (s : Subscription) :
    (f.takeTurn s).subscriptions = f.subscriptions ++ [{ s with phase := (f.act s).2 }] :=
  congrArg (· ++ _) (serves_act f s).subscriptions

/-- What is told in a turn, with the listener. -/
def Turn.told (t : Turn σ) : List (Nat × Update) := t.news.map fun u => (t.subscription.id, u)

theorem told_act (f : Feed σ) (s : Subscription) :
    (f.act s).1.told = f.told ++ Turn.told ⟨f, s, (f.act s).1⟩ := by
  obtain ⟨news, hnews⟩ := (serves_act f s).told
  have heq : Turn.news ⟨f, s, (f.act s).1⟩ = news := by simp [Turn.news, hnews, Function.comp_def]
  rw [Turn.told, heq, hnews]

theorem told_takeTurn (f : Feed σ) (s : Subscription) :
    (f.takeTurn s).told = f.told ++ Turn.told ⟨f, s, (f.act s).1⟩ := told_act f s

/-! ## Turns one after the other -/

section All

variable {ss rest : List Subscription}

theorem actAll_cons (f : Feed σ) (s : Subscription) (rest : List Subscription) :
    f.actAll (s :: rest) =
      if s.period = 0 then f.actAll rest else (f.takeTurn s).actAll rest := rfl

theorem actAll_append (f : Feed σ) (ss rest : List Subscription) :
    f.actAll (ss ++ rest) = (f.actAll ss).actAll rest := by
  induction ss generalizing f with
  | nil => rfl
  | cons s ss ih =>
    rw [List.cons_append, actAll_cons, actAll_cons]
    split
    · exact ih f
    · exact ih _

theorem turnsAll_append (f : Feed σ) (ss rest : List Subscription) :
    f.turnsAll (ss ++ rest) = f.turnsAll ss ++ (f.actAll ss).turnsAll rest := by
  induction ss generalizing f with
  | nil => rfl
  | cons s ss ih =>
    rw [List.cons_append, turnsAll, turnsAll, actAll_cons]
    split
    · exact ih f
    · exact congrArg _ (ih _)

theorem sameFrame_actAll (f : Feed σ) (ss : List Subscription) : SameFrame f (f.actAll ss) := by
  induction ss generalizing f with
  | nil => exact SameFrame.refl f
  | cons s ss ih =>
    rw [actAll_cons]
    split
    · exact ih f
    · exact (sameFrame_takeTurn f s).trans (ih _)

theorem now_actAll (f : Feed σ) (ss : List Subscription) : (f.actAll ss).now = f.now := by
  induction ss generalizing f with
  | nil => rfl
  | cons s ss ih =>
    rw [actAll_cons]
    split
    · exact ih f
    · exact (ih _).trans (now_takeTurn f s)

theorem told_actAll (f : Feed σ) (ss : List Subscription) :
    (f.actAll ss).told = f.told ++ (f.turnsAll ss).flatMap Turn.told := by
  induction ss generalizing f with
  | nil => simp [actAll, turnsAll]
  | cons s ss ih =>
    rw [actAll_cons, turnsAll]
    split
    · exact ih f
    · rw [ih, told_takeTurn, List.flatMap_cons, List.append_assoc]

/-- A turn is taken by one of the subscriptions. -/
theorem subscription_mem_of_mem_turnsAll {t : Turn σ} (ht : t ∈ f.turnsAll ss) :
    t.subscription ∈ ss := by
  induction ss generalizing f with
  | nil => cases ht
  | cons s ss ih =>
    rw [turnsAll] at ht
    split at ht
    · exact List.mem_cons_of_mem _ (ih ht)
    · rcases List.mem_cons.1 ht with rfl | ht
      · exact List.mem_cons_self
      · exact List.mem_cons_of_mem _ (ih ht)

/-- Subscriptions that act are still the same ones afterwards, but for what they do. -/
theorem mem_subscriptions_actAll (hs : s ∈ (f.actAll ss).subscriptions) :
    s ∈ f.subscriptions ∨ ∃ r ∈ ss, s = { r with phase := s.phase } := by
  induction ss generalizing f with
  | nil => exact .inl hs
  | cons r ss ih =>
    have hlater : ∀ {g : Feed σ}, s ∈ (g.actAll ss).subscriptions →
        s ∈ g.subscriptions ∨ ∃ r' ∈ r :: ss, s = { r' with phase := s.phase } := by
      intro g hg
      rcases ih hg with h | ⟨r', hr', h⟩
      · exact .inl h
      · exact .inr ⟨r', List.mem_cons_of_mem _ hr', h⟩
    rw [actAll_cons] at hs
    split at hs
    · exact hlater hs
    · rcases hlater hs with h | h
      · rw [subscriptions_takeTurn, List.mem_append, List.mem_singleton] at h
        rcases h with h | rfl
        · exact .inl h
        · exact .inr ⟨r, List.mem_cons_self, rfl⟩
      · exact .inr h

/-- The subscription with an id is left alone while others act. -/
theorem filter_actAll (hss : ∀ s ∈ ss, s.id ≠ id) :
    ((f.actAll ss).subscriptions.filter fun s => s.id = id) =
      f.subscriptions.filter fun s => s.id = id := by
  induction ss generalizing f with
  | nil => rfl
  | cons s ss ih =>
    have hrest := fun r hr => hss r (List.mem_cons_of_mem _ hr)
    rw [actAll_cons]
    split
    · exact ih hrest
    · have hs := hss s List.mem_cons_self
      rw [ih hrest, subscriptions_takeTurn, List.filter_append]
      simp [hs]

end All

/-- The turns of one subscription. -/
def turnsBy (id : Nat) (ts : List (Turn σ)) : List (Turn σ) :=
  ts.filter fun t => t.subscription.id = id

theorem turnsBy_append (id : Nat) (ts us : List (Turn σ)) :
    turnsBy id (ts ++ us) = turnsBy id ts ++ turnsBy id us := List.filter_append ts us

theorem turnsBy_turnsAll {ss : List Subscription} (hss : ∀ s ∈ ss, s.id ≠ id) :
    turnsBy id (f.turnsAll ss) = [] := by
  rw [turnsBy, List.filter_eq_nil_iff]
  intro t ht
  simpa using hss _ (subscription_mem_of_mem_turnsAll ht)

end Flowline.Feed
