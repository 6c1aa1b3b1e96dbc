import Flowline.Feed.Calls
import Flowline.Proofs.Feed.Runs
import Flowline.Proofs.Lists
import Flowline.Proofs.Maps
import Mathlib.Data.List.Nodup

/-!
# One subscription per flow

A consumer has a subscription to exactly those flows that it subscribed to last and has not ended
since (`IsLive`, `contains_performAll`). Whatever looks after a flow is listed under it (`Tidy`), so
there is no more than one subscription to a flow that acts, and ending it ends all that its listener
hears (`heard_performAll_of_ends`).
-/

namespace Flowline.Subscriptions

variable {σ : Type} {t : Subscriptions σ} {flow : String} {id : Nat}

/-! ## Live subscriptions -/

/-- The flow has been subscribed to, and this has not been ended since. -/
def IsLive (flow : String) (moves : List Move) : Prop :=
  ∃ earlier period later, moves = earlier ++ .subscribe flow period :: later ∧
    ∀ a ∈ later, a.ends flow = false

theorem isLive_concat {moves : List Move} {a : Move} : IsLive flow (moves ++ [a]) ↔
    (∃ period, a = .subscribe flow period) ∨ a.ends flow = false ∧ IsLive flow moves := by
  constructor
  · rintro ⟨earlier, period, later, hsplit, hlater⟩
    rcases concat_eq_append_cons hsplit with ⟨-, ha, -⟩ | ⟨rest, rfl, hmoves⟩
    · exact .inl ⟨period, ha⟩
    · refine .inr ⟨hlater a (by simp), earlier, period, rest, hmoves, ?_⟩
      exact fun b hb => hlater b (List.mem_append_left _ hb)
  · rintro (⟨period, rfl⟩ | ⟨ha, earlier, period, later, rfl, hlater⟩)
    · exact ⟨moves, period, [], rfl, nofun⟩
    · refine ⟨earlier, period, later ++ [a], by simp, ?_⟩
      intro b hb
      rcases List.mem_append.1 hb with hb | hb
      · exact hlater b hb
      · rw [List.mem_singleton.1 hb]
        exact ha

theorem performAll_append (t : Subscriptions σ) (moves later : List Move) :
    t.performAll (moves ++ later) = (t.performAll moves).performAll later := List.foldl_append

theorem performAll_concat (t : Subscriptions σ) (moves : List Move) (a : Move) :
    t.performAll (moves ++ [a]) = ((t.performAll moves).perform a).2 := List.foldl_append

/-! ## The table -/

theorem ids_unsubscribe (t : Subscriptions σ) (name flow : String) :
    (t.unsubscribe name).ids.get? flow = if name = flow then none else t.ids.get? flow := by
  unfold unsubscribe
  cases hname : t.ids.get? name with
  | some id => exact NameMap.get?_erase t.ids name flow
  | none =>
    dsimp only
    split
    · next h => rw [← h, hname]
    · rfl

theorem ids_subscribe (t : Subscriptions σ) (name flow : String) (period : Nat) :
    (t.subscribe name period).2.ids.get? flow =
      if name = flow then some (t.subscribe name period).1 else t.ids.get? flow := by
  have hinsert : (t.subscribe name period).2.ids =
      (t.unsubscribe name).ids.insert name (t.subscribe name period).1 := rfl
  rw [hinsert, NameMap.get?_insert, ids_unsubscribe]
  split
  · rfl
  · rfl

theorem ids_perform_of_ends_eq_false {a : Move} (ha : a.ends flow = false) :
    (t.perform a).2.ids.get? flow = t.ids.get? flow := by
  cases a with
  | subscribe name period =>
    have hne : name ≠ flow := by simpa [Move.ends] using ha
    exact (ids_subscribe t name flow period).trans (if_neg hne)
  | unsubscribe name =>
    have hne : name ≠ flow := by simpa [Move.ends] using ha
    exact (ids_unsubscribe t name flow).trans (if_neg hne)
  | unsubscribeAll => cases ha
  | advance n => rfl

theorem contains_perform (t : Subscriptions σ) (flow : String) (a : Move) :
    (t.perform a).2.contains flow = true ↔
      (∃ period, a = .subscribe flow period) ∨ a.ends flow = false ∧ t.contains flow = true := by
  cases ha : a.ends flow with
  | false =>
    have hget := ids_perform_of_ends_eq_false (t := t) ha
    have hcontains : (t.perform a).2.contains flow = t.contains flow := congrArg Option.isSome hget
    have hnot : ¬ ∃ period, a = .subscribe flow period := by
      rintro ⟨period, rfl⟩
      simp [Move.ends] at ha
    simp [hcontains, hnot]
  | true =>
    cases a with
    | subscribe name period =>
      obtain rfl : name = flow := by simpa [Move.ends] using ha
      have hget := (ids_subscribe t name name period).trans (if_pos rfl)
      have hcontains : ((t.perform (.subscribe name period)).2).contains name = true :=
        congrArg Option.isSome hget
      simp [hcontains]
    | unsubscribe name =>
      obtain rfl : name = flow := by simpa [Move.ends] using ha
      have hget := (ids_unsubscribe t name name).trans (if_pos rfl)
      have hcontains : ((t.perform (.unsubscribe name)).2).contains name = false :=
        congrArg Option.isSome hget
      simp [hcontains]
    | unsubscribeAll =>
      have hcontains : (t.perform .unsubscribeAll).2.contains flow = false := rfl
      simp [hcontains]
    | advance n => cases ha

/-- The flows of the table are those with a live subscription. -/
theorem contains_performAll {t : Subscriptions σ} (ht : t.ids = NameMap.empty) (flow : String)
    (moves : List Move) : (t.performAll moves).contains flow = true ↔ IsLive flow moves := by
  induction moves using List.reverseRecOn with
  | nil =>
    apply iff_of_false
    · have hcontains : (t.performAll []).contains flow = false :=
        congrArg (fun ids : NameMap Nat => ids.contains flow) ht
      simp [hcontains]
    · rintro ⟨earlier, period, later, hnil, -⟩
      simp at hnil
  | append_singleton moves a ih => rw [performAll_concat, contains_perform, ih, isLive_concat]

/-! ## What looks after the flows -/

/-- The subscription to a flow, if there is one. -/
def idsOf (t : Subscriptions σ) (flow : String) : List Nat := (t.ids.get? flow).toList

theorem feed_unsubscribe (t : Subscriptions σ) (flow : String) :
    (t.unsubscribe flow).feed = t.feed.unsubscribe (t.idsOf flow) := by
  unfold unsubscribe idsOf
  cases t.ids.get? flow with
  | none => rfl
  | some id => rfl

theorem sameFrame_unsubscribe (t : Subscriptions σ) (flow : String) :
    Feed.SameFrame t.feed (t.unsubscribe flow).feed := by
  rw [feed_unsubscribe]
  exact Feed.sameFrame_unsubscribe t.feed (t.idsOf flow)

theorem now_unsubscribe (t : Subscriptions σ) (flow : String) :
    (t.unsubscribe flow).feed.now = t.feed.now := by
  rw [feed_unsubscribe]
  exact Feed.now_unsubscribe t.feed (t.idsOf flow)

theorem source_subscribe (t : Subscriptions σ) (flow : String) (period : Nat) :
    (t.subscribe flow period).2.feed.source = t.feed.source := (t.sameFrame_unsubscribe flow).source

theorem registry_subscribe (t : Subscriptions σ) (flow : String) (period : Nat) :
    (t.subscribe flow period).2.feed.monitor.registry = t.feed.monitor.registry :=
  (t.sameFrame_unsubscribe flow).registry

/-- Whatever looks after a flow is listed under it. -/
structure Tidy (t : Subscriptions σ) : Prop where
  numbered : t.feed.Numbered
  filed : ∀ s ∈ t.feed.subscriptions, t.ids.get? s.flowName = some s.id
  single : (t.feed.subscriptions.map Subscription.flowName).Nodup
  taken : ∀ name id, t.ids.get? name = some id → id < t.feed.nextId
  distinct : ∀ name name' id, t.ids.get? name = some id → t.ids.get? name' = some id → name = name'

theorem Tidy.congr (h : t.Tidy) {f : Feed σ} (hnumbered : f.Numbered)
    (hsame : Feed.SameSubscriptions t.feed f) (hnext : f.nextId = t.feed.nextId) :
    Tidy ⟨f, t.ids⟩ where
  numbered := hnumbered
  filed := by
    intro s hs
    obtain ⟨r, hr, heq⟩ := hsame.back s hs
    rw [heq]
    exact h.filed r hr
  single := hsame.nodup h.single
  taken name id hid := hnext.symm ▸ h.taken name id hid
  distinct := h.distinct

theorem Tidy.settle (h : t.Tidy) : Tidy ⟨t.feed.settle, t.ids⟩ :=
  h.congr h.numbered.settle (Feed.sameSubscriptions_settle _) (Feed.sameFrame_settle _).nextId

theorem Tidy.advance (h : t.Tidy) (n : Nat) : (t.advance n).Tidy :=
  h.congr (h.numbered.advance n) (Feed.sameSubscriptions_advance n _)
    (Feed.sameFrame_advance n _).nextId

theorem mem_subscriptions_cancel {f : Feed σ} {ended : List Nat} {s : Subscription} :
    s ∈ (f.cancel ended).subscriptions ↔ s ∈ f.subscriptions ∧ s.id ∉ ended := by
  simp [Feed.cancel]

theorem mem_idsOf : id ∈ t.idsOf flow ↔ t.ids.get? flow = some id := by
  rw [idsOf, Option.mem_toList]

/-- Entries may be removed from the table if their subscriptions are ended. -/
theorem Tidy.unsubscribed (h : t.Tidy) {ended : List Nat} {ids : NameMap Nat}
    (hkept : ∀ name id, t.ids.get? name = some id → id ∉ ended → ids.get? name = some id)
    (hof : ∀ name id, ids.get? name = some id → t.ids.get? name = some id) :
    Tidy ⟨t.feed.unsubscribe ended, ids⟩ := by
  have hsame := Feed.sameSubscriptions_unsubscribe t.feed ended
  constructor
  · exact h.numbered.unsubscribe ended
  · intro s hs
    obtain ⟨r, hr, heq⟩ := hsame.back s hs
    obtain ⟨hr, hid⟩ := mem_subscriptions_cancel.1 hr
    rw [heq]
    exact hkept _ _ (h.filed r hr) hid
  · exact hsame.nodup ((List.filter_sublist.map _).nodup h.single)
  · intro name id hid
    rw [Feed.nextId_unsubscribe]
    exact h.taken name id (hof name id hid)
  · exact fun name name' id hid hid' => h.distinct name name' id (hof _ _ hid) (hof _ _ hid')

theorem Tidy.unsubscribe (h : t.Tidy) (flow : String) : (t.unsubscribe flow).Tidy := by
  have htidy : Tidy ⟨t.feed.unsubscribe (t.idsOf flow), (t.unsubscribe flow).ids⟩ := by
    apply h.unsubscribed
    · intro name id hid hended
      rw [ids_unsubscribe, if_neg, hid]
      rintro rfl
      exact hended (mem_idsOf.2 hid)
    · intro name id hid
      rw [ids_unsubscribe] at hid
      split at hid
      · cases hid
      · exact hid
  rw [← feed_unsubscribe] at htidy
  exact htidy

theorem mem_values_of_get? {ids : NameMap Nat} {name : String} (h : ids.get? name = some id) :
    id ∈ ids.values := List.mem_map.2 ⟨(name, id), NameMap.get?_eq_some_iff.1 h, rfl⟩

theorem Tidy.unsubscribeAll (h : t.Tidy) : t.unsubscribeAll.Tidy := by
  apply h.unsubscribed
  · intro name id hid hended
    exact absurd (mem_values_of_get? hid) hended
  · exact nofun

theorem Tidy.flowName_not_mem (h : t.Tidy) (hnone : t.ids.get? flow = none) :
    flow ∉ t.feed.subscriptions.map Subscription.flowName := by
  intro hmem
  obtain ⟨s, hs, rfl⟩ := List.mem_map.1 hmem
  rw [h.filed s hs] at hnone
  cases hnone

/-- An id that is not taken yet may be listed under any flow. -/
theorem Tidy.distinct_insert (h : t.Tidy) (flow name name' : String) (id : Nat)
    (hid : (t.ids.insert flow t.feed.nextId).get? name = some id)
    (hid' : (t.ids.insert flow t.feed.nextId).get? name' = some id) : name = name' := by
  rw [NameMap.get?_insert] at hid hid'
  split at hid
  · next hname =>
    cases hid
    split at hid'
    · next hname' => exact hname.symm.trans hname'
    · exact absurd (h.taken name' _ hid') (Nat.lt_irrefl _)
  · split at hid'
    · cases hid'
      exact absurd (h.taken name _ hid) (Nat.lt_irrefl _)
    · exact h.distinct name name' id hid hid'

/-- Of a flow that nothing looks after. -/
theorem Tidy.begin (h : t.Tidy) (hnone : t.ids.get? flow = none) (period : Nat) :
    Tidy ⟨(t.feed.subscribe flow period).2, t.ids.insert flow t.feed.nextId⟩ := by
  constructor
  · exact h.numbered.subscribe flow period
  · intro s hs
    rw [NameMap.get?_insert]
    rcases List.mem_append.1 hs with hbefore | hnew
    · rw [if_neg, h.filed s hbefore]
      rintro rfl
      exact h.flowName_not_mem hnone (List.mem_map_of_mem hbefore)
    · rw [List.mem_singleton.1 hnew, if_pos rfl]
  · have hmap : (t.feed.subscribe flow period).2.subscriptions.map Subscription.flowName =
        t.feed.subscriptions.map Subscription.flowName ++ [flow] := List.map_append
    rw [hmap, ← List.concat_eq_append]
    exact (List.nodup_concat _ _).2 ⟨h.flowName_not_mem hnone, h.single⟩
  · intro name id hid
    rw [NameMap.get?_insert] at hid
    split at hid
    · cases hid
      exact Nat.lt_succ_self _
    · exact Nat.lt_succ_of_lt (h.taken name id hid)
  · exact h.distinct_insert flow

theorem Tidy.subscribe (h : t.Tidy) (flow : String) (period : Nat) :
    (t.subscribe flow period).2.Tidy :=
  (h.unsubscribe flow).begin ((ids_unsubscribe t flow flow).trans (if_pos rfl)) period

theorem Tidy.perform (h : t.Tidy) (a : Move) : (t.perform a).2.Tidy := by
  cases a with
  | subscribe flow period => exact h.subscribe flow period
  | unsubscribe flow => exact h.unsubscribe flow
  | unsubscribeAll => exact h.unsubscribeAll
  | advance n => exact h.advance n

theorem Tidy.performAll (h : t.Tidy) (moves : List Move) : (t.performAll moves).Tidy := by
  induction moves generalizing t with
  | nil => exact h
  | cons a moves ih => exact ih (h.perform a)

/-! ## A subscription that goes on -/

/-- The subscription to a flow acts, with this period. -/
structure Polls (t : Subscriptions σ) (flow : String) (id period : Nat) : Prop where
  listed : t.ids.get? flow = some id
  acts : ∃ s ∈ t.feed.subscriptions, s.id = id ∧ s.flowName = flow ∧ s.period = period

theorem polls_subscribe (t : Subscriptions σ) (flow : String) (period : Nat) :
    (t.subscribe flow period).2.Polls flow (t.subscribe flow period).1 period where
  listed := (ids_subscribe t flow flow period).trans (if_pos rfl)
  acts := ⟨_, List.mem_append_right _ (List.mem_singleton_self _), rfl, rfl, rfl⟩

theorem Polls.congr {period : Nat} (h : t.Polls flow id period) (hperiod : period ≠ 0)
    {u : Subscriptions σ} (hlisted : u.ids.get? flow = t.ids.get? flow)
    (hsame : Feed.SameSubscriptions t.feed u.feed) : u.Polls flow id period where
  listed := hlisted.trans h.listed
  acts := by
    obtain ⟨s, hs, rfl, rfl, rfl⟩ := h.acts
    exact hsame.forth s hs hperiod

/-- It goes on until it is ended. -/
theorem Polls.perform {period : Nat} (h : t.Polls flow id period) (ht : t.Tidy)
    (hperiod : period ≠ 0) {a : Move} (ha : a.ends flow = false) :
    (t.perform a).2.Polls flow id period := by
  have hunsubscribe : ∀ name, name ≠ flow → (t.unsubscribe name).Polls flow id period := by
    intro name hne
    obtain ⟨s, hs, hid, hname, hsame⟩ := h.acts
    have hkept : s.id ∉ t.idsOf name := by
      rw [hid, mem_idsOf]
      exact fun hget => hne (ht.distinct name flow id hget h.listed)
    refine ⟨(ids_unsubscribe t name flow).trans ((if_neg hne).trans h.listed), ?_⟩
    rw [feed_unsubscribe]
    obtain ⟨r, hr, hrid, hrname, hrsame⟩ :=
      (Feed.sameSubscriptions_unsubscribe t.feed (t.idsOf name)).forth s
        (mem_subscriptions_cancel.2 ⟨hs, hkept⟩) (hsame ▸ hperiod)
    exact ⟨r, hr, hrid.trans hid, hrname.trans hname, hrsame.trans hsame⟩
  cases a with
  | subscribe name ms =>
    have hne : name ≠ flow := by simpa [Move.ends] using ha
    have hended := hunsubscribe name hne
    obtain ⟨s, hs, hrest⟩ := hended.acts
    refine ⟨?_, s, List.mem_append_left _ hs, hrest⟩
    exact (ids_subscribe t name flow ms).trans ((if_neg hne).trans h.listed)
  | unsubscribe name => exact hunsubscribe name (by simpa [Move.ends] using ha)
  | unsubscribeAll => cases ha
  | advance n => exact h.congr hperiod rfl (Feed.sameSubscriptions_advance n t.feed)

theorem Polls.performAll {period : Nat} (h : t.Polls flow id period) (ht : t.Tidy)
    (hperiod : period ≠ 0) {moves : List Move} (hmoves : ∀ a ∈ moves, a.ends flow = false) :
    (t.performAll moves).Polls flow id period := by
  induction moves generalizing t with
  | nil => exact h
  | cons a moves ih =>
    exact ih (h.perform ht hperiod (hmoves a List.mem_cons_self)) (ht.perform a)
      fun b hb => hmoves b (List.mem_cons_of_mem _ hb)

theorem ids_performAll {moves : List Move} (hmoves : ∀ a ∈ moves, a.ends flow = false) :
    (t.performAll moves).ids.get? flow = t.ids.get? flow := by
  induction moves generalizing t with
  | nil => rfl
  | cons a moves ih =>
    exact (ih fun b hb => hmoves b (List.mem_cons_of_mem _ hb)).trans
      (ids_perform_of_ends_eq_false (hmoves a List.mem_cons_self))

/-! ## A subscription that has ended -/

/-- What a move comes to for the feed. -/
def feedMoves (t : Subscriptions σ) : Move → List Feed.Move
  | .subscribe name period => [.unsubscribe (t.idsOf name), .subscribe name period]
  | .unsubscribe name => [.unsubscribe (t.idsOf name)]
  | .unsubscribeAll => [.unsubscribe t.ids.values]
  | .advance n => [.advance n]

theorem feed_perform (t : Subscriptions σ) (a : Move) :
    (t.perform a).2.feed = t.feed.performAll (t.feedMoves a) := by
  cases a with
  | subscribe name period =>
    exact congrArg (fun f : Feed σ => (f.subscribe name period).2) (feed_unsubscribe t name)
  | unsubscribe name => exact feed_unsubscribe t name
  | unsubscribeAll => rfl
  | advance n => rfl

/-- What moves come to for the feed. -/
def feedMovesAll (t : Subscriptions σ) : List Move → List Feed.Move
  | [] => []
  | a :: moves => t.feedMoves a ++ (t.perform a).2.feedMovesAll moves

theorem feed_performAll (t : Subscriptions σ) (moves : List Move) :
    (t.performAll moves).feed = t.feed.performAll (t.feedMovesAll moves) := by
  induction moves generalizing t with
  | nil => rfl
  | cons a moves ih =>
    have hcons : t.performAll (a :: moves) = (t.perform a).2.performAll moves := rfl
    rw [hcons, ih, feed_perform, feedMovesAll, Feed.performAll_append]

theorem gone_performAll (h : Feed.Gone id t.feed) (moves : List Move) :
    (t.performAll moves).feed.heard id = t.feed.heard id := by
  induction moves generalizing t with
  | nil => rfl
  | cons a moves ih =>
    have hfeed := feed_perform t a
    have hgone : Feed.Gone id (t.perform a).2.feed := hfeed ▸ (h.performAll (t.feedMoves a)).1
    have hheard : (t.perform a).2.feed.heard id = t.feed.heard id :=
      hfeed ▸ h.heard_performAll (t.feedMoves a)
    exact (ih hgone).trans hheard

/-- The call that ends a subscription does so before anyone is told anything. -/
theorem gone_of_ends (ht : t.Tidy) (hid : t.ids.get? flow = some id) {a : Move}
    (ha : a.ends flow = true) :
    Feed.Gone id (t.perform a).2.feed ∧ (t.perform a).2.feed.heard id = t.feed.heard id := by
  have htaken := ht.taken flow id hid
  have hfirst : ∃ m rest, t.feedMoves a = m :: rest ∧ m.ends id = true := by
    cases a with
    | subscribe name period =>
      obtain rfl : name = flow := by simpa [Move.ends] using ha
      exact ⟨_, _, rfl, List.contains_iff_mem.2 (mem_idsOf.2 hid)⟩
    | unsubscribe name =>
      obtain rfl : name = flow := by simpa [Move.ends] using ha
      exact ⟨_, _, rfl, List.contains_iff_mem.2 (mem_idsOf.2 hid)⟩
    | unsubscribeAll => exact ⟨_, _, rfl, List.contains_iff_mem.2 (mem_values_of_get? hid)⟩
    | advance n => cases ha
  obtain ⟨m, rest, hmoves, hends⟩ := hfirst
  have hgone := (Feed.gone_of_ends htaken hends).1
  have hfeed : (t.perform a).2.feed = (t.feed.perform m).performAll rest := by
    rw [feed_perform, hmoves]
    rfl
  rw [hfeed, hgone.heard_performAll, Feed.heard_perform_of_ends htaken hends]
  exact ⟨(hgone.performAll rest).1, rfl⟩

/-- Nothing is heard by way of a subscription from the call that ends it on. -/
theorem heard_performAll_of_ends (ht : t.Tidy) (hid : t.ids.get? flow = some id) {a : Move}
    (ha : a.ends flow = true) (later : List Move) :
    (t.performAll (a :: later)).feed.heard id = t.feed.heard id := by
  obtain ⟨hgone, hheard⟩ := gone_of_ends ht hid ha
  exact (gone_performAll hgone later).trans hheard

end Flowline.Subscriptions
