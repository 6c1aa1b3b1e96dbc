import Flowline.Proofs.Feed.Undisturbed
import Flowline.Proofs.Monitor.History

/-!
# What a consumer can rely on

A consumer has at most one subscription to a flow, whose listener hears something only between the
call that begins it and the next one that ends it (`onePerFlow`). Calls about one flow may change
what the listener of another one receives (`not_undisturbed`): if the source tells news of the other
flow, and, whatever the source is, if the other subscription is ended at the instant at which it is
due. In all other cases they do not.
-/

namespace Flowline.Subscriptions

variable {σ : Type}

/-! ## What is not so -/

/-- A source that has news of one flow only, whichever it is asked about. -/
def hearsay : Source PUnit where
  name := "hearsay"
  pollInterval := none
  fetch _ s :=
    (Fetch.immediate (.ok ⟨"B", default, NameMap.ofList [(s.name, Patch.ofStatus .failed)]⟩), ())

/-- A monitor with two flows. -/
def twoFlows : Monitor :=
  Monitor.empty.performAll
    [.register { (default : Registration) with flowName := "A" },
     .register { (default : Registration) with flowName := "B" }]

/-- A source may tell one flow of another, and the end of a subscription lets others act at once. -/
theorem not_undisturbed :
    (¬ ∀ flow moves, (start (Feed.start twoFlows hearsay ())).Undisturbed flow moves) ∧
    ¬ ∀ flow moves, (start (Feed.start Monitor.empty (Mock.source default none)
      NameMap.empty)).Undisturbed flow moves := by
  constructor
  · intro h
    have hb := h "B" [.subscribe "A" 5, .subscribe "B" 5] 0
    revert hb
    decide
  · intro h
    have hb := h "B" [.subscribe "A" 5, .subscribe "B" 5, .advance 5, .unsubscribe "A",
      .unsubscribe "B"] 0
    revert hb
    decide

/-! ## What is so -/

/-- What holds of a consumer, whatever the moves. -/
structure OnePerFlow (t : Subscriptions σ) : Prop where
  /-- At most one subscription to a flow acts, and it is live. -/
  single : ∀ moves, ((t.performAll moves).feed.subscriptions.map Subscription.flowName).Nodup ∧
    ∀ s ∈ (t.performAll moves).feed.subscriptions, IsLive s.flowName moves
  /-- A live subscription acts, if it has a period. -/
  polls : ∀ earlier flow period later, period ≠ 0 → (∀ a ∈ later, a.ends flow = false) →
    (t.performAll (earlier ++ .subscribe flow period :: later)).Polls flow
      ((t.performAll earlier).subscribe flow period).1 period
  /-- Listeners hear what they are told in the turns of their subscriptions, -/
  heard : ∀ moves id, (t.performAll moves).feed.heard id =
    (Feed.turnsBy id (t.feed.turns (t.feedMovesAll moves))).flatMap Feed.Turn.news
  /-- nothing before their subscription begins, -/
  before : ∀ earlier flow period,
    (t.performAll earlier).feed.heard ((t.performAll earlier).subscribe flow period).1 = []
  /-- and nothing from the next call on that ends it. -/
  after : ∀ earlier flow period later a rest, (∀ b ∈ later, b.ends flow = false) →
    a.ends flow = true →
    (t.performAll (earlier ++ .subscribe flow period :: later ++ a :: rest)).feed.heard
        ((t.performAll earlier).subscribe flow period).1 =
      (t.performAll (earlier ++ .subscribe flow period :: later)).feed.heard
        ((t.performAll earlier).subscribe flow period).1
  found_iff : ∀ moves flow, ((t.performAll moves).perform (.unsubscribe flow)).1 =
    .unsubscribed true ↔ IsLive flow moves
  flows : ∀ moves, (t.performAll moves).flows.Pairwise (· < ·) ∧
    ∀ flow, flow ∈ (t.performAll moves).flows ↔ IsLive flow moves
  /-- Calls about other flows do not disturb the listeners of a flow, if the source keeps flows
  apart and no subscription to it is ended when it may have been due. -/
  undisturbed : ∀ {π : Type} (part : String → σ → π), t.feed.source.KeepsApart part →
    ∀ flow moves, t.InTime flow moves → t.Undisturbed flow moves

section Start

variable {t : Subscriptions σ}

theorem performAll_subscribe (t : Subscriptions σ) (earlier : List Move) (flow : String)
    (period : Nat) (later : List Move) :
    t.performAll (earlier ++ .subscribe flow period :: later) =
      ((t.performAll earlier).subscribe flow period).2.performAll later :=
  performAll_append t earlier (.subscribe flow period :: later)

theorem heard_subscribe (ht : t.Tidy) (flow : String) (period : Nat) :
    t.feed.heard (t.subscribe flow period).1 = [] := by
  have hid : (t.subscribe flow period).1 = t.feed.nextId := by
    have hnext : (t.unsubscribe flow).feed.nextId = t.feed.nextId := by
      rw [feed_unsubscribe, Feed.nextId_unsubscribe]
    exact hnext
  rw [hid]
  exact ht.numbered.heard_nextId

theorem heard_after (ht : t.Tidy) (flow : String) (period : Nat) {later : List Move}
    (hlater : ∀ b ∈ later, b.ends flow = false) {a : Move} (ha : a.ends flow = true)
    (rest : List Move) :
    ((t.subscribe flow period).2.performAll (later ++ a :: rest)).feed.heard
        (t.subscribe flow period).1 =
      ((t.subscribe flow period).2.performAll later).feed.heard (t.subscribe flow period).1 := by
  have hlisted : ((t.subscribe flow period).2.performAll later).ids.get? flow =
      some (t.subscribe flow period).1 :=
    (ids_performAll hlater).trans ((ids_subscribe t flow flow period).trans (if_pos rfl))
  rw [performAll_append]
  exact heard_performAll_of_ends ((ht.subscribe flow period).performAll later) hlisted ha rest

/-- A consumer without subscriptions, to whom nothing has been told. -/
structure IsNew (t : Subscriptions σ) : Prop where
  ids : t.ids = NameMap.empty
  subscriptions : t.feed.subscriptions = []
  told : t.feed.told = []
  named : t.feed.monitor.IsNamed

theorem IsNew.tidy (h : t.IsNew) : t.Tidy where
  numbered := ⟨h.subscriptions.symm ▸ nofun, h.told.symm ▸ nofun⟩
  filed := h.subscriptions.symm ▸ nofun
  single := h.subscriptions.symm ▸ List.nodup_nil
  taken := h.ids.symm ▸ nofun
  distinct := h.ids.symm ▸ nofun

theorem IsNew.holds (h : t.IsNew) : t.OnePerFlow where
  single moves := by
    have htidy := h.tidy.performAll moves
    refine ⟨htidy.single, ?_⟩
    intro s hs
    rw [← contains_performAll h.ids]
    exact congrArg Option.isSome (htidy.filed s hs)
  polls earlier flow period later hperiod hlater := by
    have htidy := h.tidy.performAll earlier
    rw [performAll_subscribe]
    exact (polls_subscribe _ flow period).performAll (htidy.subscribe flow period) hperiod hlater
  heard moves id := by
    have hnothing : t.feed.heard id = [] := by
      rw [Feed.heard, h.told]
      rfl
    rw [feed_performAll, Feed.heard_performAll, hnothing, List.nil_append]
  before earlier flow period := heard_subscribe (h.tidy.performAll earlier) flow period
  after earlier flow period later a rest hlater ha := by
    rw [List.append_assoc, List.cons_append, performAll_subscribe, performAll_subscribe]
    exact heard_after (h.tidy.performAll earlier) flow period hlater ha rest
  found_iff moves flow := by
    rw [← contains_performAll h.ids]
    constructor
    · intro hanswer
      exact Answer.unsubscribed.inj hanswer
    · intro hcontains
      exact congrArg Answer.unsubscribed hcontains
  flows moves := by
    constructor
    · exact List.pairwise_map.2 (t.performAll moves).ids.sorted
    · intro flow
      rw [← contains_performAll h.ids]
      exact (NameMap.isSome_get? (t.performAll moves).ids flow).symm
  undisturbed part hsource flow moves hmoves := by
    have hordered : t.feed.Ordered part flow [] := by
      refine ⟨hsource, h.named, ?_⟩
      intro s hs
      rw [h.subscriptions] at hs
      cases hs
    have hfit : Fit part flow [] t := by
      refine ⟨h.tidy, hordered, ?_⟩
      intro id hid
      cases hid
    exact undisturbed_of_inTime hfit hmoves

/-- Whatever a new consumer does, it has at most one subscription to a flow at a time, whose
listener is told of the flow from its beginning to its end. -/
theorem onePerFlow (calls : List Monitor.Call) (source : Source σ) (memory : σ) :
    (start (Feed.start (Monitor.empty.performAll calls) source memory)).OnePerFlow := by
  apply IsNew.holds
  exact ⟨rfl, rfl, rfl, Monitor.isNamed_performAll calls⟩

end Start

end Flowline.Subscriptions
