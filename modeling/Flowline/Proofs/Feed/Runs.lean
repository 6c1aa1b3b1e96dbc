import Flowline.Proofs.Feed.Instants
import Mathlib.Data.List.Basic

/-!
# Runs of a feed

What the listeners hear is what they are told in turns (`told_eq_turns`, `heard_performAll`). Every
subscription has an id of its own (`Numbered`), and one that has ended does not come back
(`Gone.performAll`).
-/

namespace Flowline.Feed

variable {σ : Type} {f : Feed σ} {id : Nat}

/-! ## Moves -/

theorem performAll_append (f : Feed σ) (moves later : List Move) :
    f.performAll (moves ++ later) = (f.performAll moves).performAll later := List.foldl_append

theorem turns_append (f : Feed σ) (moves later : List Move) :
    f.turns (moves ++ later) = f.turns moves ++ (f.performAll moves).turns later := by
  induction moves generalizing f with
  | nil => rfl
  | cons a moves ih =>
    rw [List.cons_append, turns, turns, ih, List.append_assoc]
    rfl

theorem told_perform (f : Feed σ) (a : Move) :
    (f.perform a).told = f.told ++ (f.moveTurns a).flatMap Turn.told := by
  cases a with
  | advance n => exact told_advance n f
  | settle => exact told_settle f
  | call c => exact (List.append_nil _).symm
  | subscribe flowName period => exact (List.append_nil _).symm
  | cancel ids => exact (List.append_nil _).symm
  | unsubscribe ids =>
    rw [perform, moveTurns, unsubscribe]
    split
    · exact told_settle (f.cancel ids)
    · exact (List.append_nil _).symm

/-- What the listeners hear they are told in turns. -/
theorem told_eq_turns (f : Feed σ) (moves : List Move) :
    (f.performAll moves).told = f.told ++ (f.turns moves).flatMap Turn.told := by
  induction moves generalizing f with
  | nil => simp [performAll, turns]
  | cons a moves ih =>
    have hcons : f.performAll (a :: moves) = (f.perform a).performAll moves := rfl
    rw [hcons, turns, ih, told_perform, List.flatMap_append, List.append_assoc]

theorem heardIn_told (t : Turn σ) (id : Nat) :
    heardIn id t.told = if t.subscription.id = id then t.news else [] := by
  unfold heardIn Turn.told
  rw [List.filterMap_map]
  split
  · next h => exact (List.filterMap_congr fun _ _ => if_pos h).trans List.filterMap_some
  · next h => exact List.filterMap_eq_nil_iff.2 fun _ _ => if_neg h

theorem heardIn_flatMap_told (ts : List (Turn σ)) (id : Nat) :
    heardIn id (ts.flatMap Turn.told) = (turnsBy id ts).flatMap Turn.news := by
  induction ts with
  | nil => rfl
  | cons t ts ih =>
    have happend : heardIn id (t.told ++ ts.flatMap Turn.told) =
        heardIn id t.told ++ heardIn id (ts.flatMap Turn.told) := List.filterMap_append
    rw [List.flatMap_cons, happend, heardIn_told, ih, turnsBy, turnsBy, List.filter_cons]
    split
    · next h => simp [h]
    · next h => simp [h]

theorem heard_performAll (f : Feed σ) (moves : List Move) (id : Nat) :
    (f.performAll moves).heard id =
      f.heard id ++ (turnsBy id (f.turns moves)).flatMap Turn.news := by
  rw [← heardIn_flatMap_told, heard, told_eq_turns]
  exact List.filterMap_append

/-- In how many steps time passes makes no difference to what happens or to what follows. -/
theorem performAll_split (f : Feed σ) (moves later : List Move) (m n : Nat) :
    f.performAll (moves ++ .advance (m + n) :: later) =
      f.performAll (moves ++ .advance m :: .advance n :: later) := by
  rw [performAll_append, performAll_append]
  exact congrArg (performAll · later) (advance_add m n _)

theorem turns_split (f : Feed σ) (moves later : List Move) (m n : Nat) :
    f.turns (moves ++ .advance (m + n) :: later) =
      f.turns (moves ++ .advance m :: .advance n :: later) := by
  rw [turns_append, turns_append, turns, turns, turns]
  simp only [moveTurns, perform]
  rw [advanceTurns_add, advance_add, List.append_assoc]

/-! ## The ids of subscriptions -/

/-- The ids of all subscriptions that there have been are taken. -/
structure Numbered (f : Feed σ) : Prop where
  subscriptions : ∀ s ∈ f.subscriptions, s.id < f.nextId
  told : ∀ e ∈ f.told, e.1 < f.nextId

theorem numbered_start (monitor : Monitor) (source : Source σ) (memory : σ) :
    (start monitor source memory).Numbered := ⟨nofun, nofun⟩

theorem Numbered.settle (hf : f.Numbered) : f.settle.Numbered := by
  constructor
  · intro s hs
    obtain ⟨r, hr, heq⟩ := mem_subscriptions_settle hs
    rw [heq, (sameFrame_settle f).nextId]
    exact hf.subscriptions r hr
  · intro e he
    rw [told_settle, List.mem_append, List.mem_flatMap] at he
    rw [(sameFrame_settle f).nextId]
    rcases he with he | ⟨t, ht, he⟩
    · exact hf.told e he
    · obtain ⟨u, -, rfl⟩ := List.mem_map.1 he
      exact hf.subscriptions _ (subscription_mem_of_mem_settleTurns ht)

theorem Numbered.advance (hf : f.Numbered) (n : Nat) : (f.advance n).Numbered := by
  induction n generalizing f with
  | zero => exact hf
  | succ n ih =>
    rw [advance_succ]
    exact ih ⟨hf.settle.subscriptions, hf.settle.told⟩

theorem Numbered.cancel (hf : f.Numbered) (ids : List Nat) : (f.cancel ids).Numbered :=
  ⟨fun s hs => hf.subscriptions s (List.mem_filter.1 hs).1, hf.told⟩

theorem Numbered.unsubscribe (hf : f.Numbered) (ids : List Nat) : (f.unsubscribe ids).Numbered := by
  unfold Feed.unsubscribe
  split
  · exact (hf.cancel ids).settle
  · exact hf

theorem Numbered.subscribe (hf : f.Numbered) (flowName : String) (period : Nat) :
    (f.subscribe flowName period).2.Numbered := by
  constructor
  · intro s hs
    rcases List.mem_append.1 hs with hs | hs
    · exact Nat.lt_succ_of_lt (hf.subscriptions s hs)
    · rw [List.mem_singleton.1 hs]
      exact Nat.lt_succ_self _
  · intro e he
    exact Nat.lt_succ_of_lt (hf.told e he)

theorem Numbered.perform (hf : f.Numbered) (a : Move) : (f.perform a).Numbered := by
  cases a with
  | advance n => exact hf.advance n
  | settle => exact hf.settle
  | call c => exact ⟨hf.subscriptions, hf.told⟩
  | subscribe flowName period => exact hf.subscribe flowName period
  | cancel ids => exact hf.cancel ids
  | unsubscribe ids => exact hf.unsubscribe ids

theorem Numbered.performAll (hf : f.Numbered) (moves : List Move) :
    (f.performAll moves).Numbered := by
  induction moves generalizing f with
  | nil => exact hf
  | cons a moves ih => exact ih (hf.perform a)

/-- Nobody has heard anything from a subscription that is still to come. -/
theorem Numbered.heard_nextId (hf : f.Numbered) : f.heard f.nextId = [] := by
  rw [heard, heardIn, List.filterMap_eq_nil_iff]
  intro e he
  have hlt := hf.told e he
  exact if_neg (by omega)

/-! ## Subscriptions that have ended -/

/-- There is no more such subscription. -/
structure Gone (id : Nat) (f : Feed σ) : Prop where
  taken : id < f.nextId
  none : ∀ s ∈ f.subscriptions, s.id ≠ id

theorem Gone.settle (h : Gone id f) : Gone id f.settle := by
  constructor
  · exact (sameFrame_settle f).nextId ▸ h.taken
  · intro s hs
    obtain ⟨r, hr, heq⟩ := mem_subscriptions_settle hs
    rw [heq]
    exact h.none r hr

theorem Gone.turnsBy_settleTurns (h : Gone id f) : turnsBy id f.settleTurns = [] := by
  rw [turnsBy, List.filter_eq_nil_iff]
  intro t ht
  simpa using h.none _ (subscription_mem_of_mem_settleTurns ht)

theorem Gone.cancel (h : Gone id f) (ids : List Nat) : Gone id (f.cancel ids) :=
  ⟨h.taken, fun s hs => h.none s (List.mem_filter.1 hs).1⟩

theorem Gone.advance (h : Gone id f) (n : Nat) :
    Gone id (f.advance n) ∧ turnsBy id (f.advanceTurns n) = [] := by
  induction n generalizing f with
  | zero => exact ⟨h, rfl⟩
  | succ n ih =>
    obtain ⟨hgone, hturns⟩ := ih (f := f.nextInstant) ⟨h.settle.taken, h.settle.none⟩
    rw [advance_succ, advanceTurns, turnsBy_append, h.turnsBy_settleTurns, hturns]
    exact ⟨hgone, rfl⟩

theorem Gone.perform (h : Gone id f) (a : Move) :
    Gone id (f.perform a) ∧ turnsBy id (f.moveTurns a) = [] := by
  cases a with
  | advance n => exact h.advance n
  | settle => exact ⟨h.settle, h.turnsBy_settleTurns⟩
  | call c => exact ⟨⟨h.taken, h.none⟩, rfl⟩
  | subscribe flowName period =>
    refine ⟨⟨Nat.lt_succ_of_lt h.taken, ?_⟩, rfl⟩
    intro s hs
    rcases List.mem_append.1 hs with hs | hs
    · exact h.none s hs
    · rw [List.mem_singleton.1 hs]
      exact Nat.ne_of_gt h.taken
  | cancel ids => exact ⟨h.cancel ids, rfl⟩
  | unsubscribe ids =>
    rw [Feed.perform, moveTurns, Feed.unsubscribe]
    split
    · exact ⟨(h.cancel ids).settle, (h.cancel ids).turnsBy_settleTurns⟩
    · exact ⟨h, rfl⟩

/-- A subscription that has ended does not come back. -/
theorem Gone.performAll (h : Gone id f) (moves : List Move) :
    Gone id (f.performAll moves) ∧ turnsBy id (f.turns moves) = [] := by
  induction moves generalizing f with
  | nil => exact ⟨h, rfl⟩
  | cons a moves ih =>
    obtain ⟨hgone, hturns⟩ := h.perform a
    obtain ⟨hlater, hturns'⟩ := ih hgone
    rw [turns, turnsBy_append, hturns, hturns']
    exact ⟨hlater, rfl⟩

theorem gone_cancel (htaken : id < f.nextId) {ids : List Nat} (hid : id ∈ ids) :
    Gone id (f.cancel ids) := by
  refine ⟨htaken, ?_⟩
  rintro s hs rfl
  have hnot := (List.mem_filter.1 hs).2
  simp [hid] at hnot

/-- The move that ends a subscription does so before anyone takes a turn. -/
theorem gone_of_ends (htaken : id < f.nextId) {a : Move} (ha : a.ends id = true) :
    Gone id (f.perform a) ∧ turnsBy id (f.moveTurns a) = [] := by
  cases a with
  | advance n => cases ha
  | settle => cases ha
  | call c => cases ha
  | subscribe flowName period => cases ha
  | cancel ids => exact ⟨gone_cancel htaken (List.contains_iff_mem.1 ha), rfl⟩
  | unsubscribe ids =>
    have hid := List.contains_iff_mem.1 ha
    have hcancelled := gone_cancel htaken hid
    rw [Feed.perform, moveTurns, Feed.unsubscribe]
    split
    · exact ⟨hcancelled.settle, hcancelled.turnsBy_settleTurns⟩
    · next hlive =>
      refine ⟨⟨htaken, ?_⟩, rfl⟩
      rintro s hs rfl
      exact hlive (List.any_eq_true.2 ⟨s.id, hid, List.any_eq_true.2 ⟨s, hs, by simp⟩⟩)

/-- Nothing more is heard by way of a subscription that has ended. -/
theorem Gone.heard_performAll (h : Gone id f) (moves : List Move) :
    (f.performAll moves).heard id = f.heard id := by
  rw [Feed.heard_performAll, (h.performAll moves).2]
  exact List.append_nil _

/-- Nor while it ends. -/
theorem heard_perform_of_ends (htaken : id < f.nextId) {a : Move} (ha : a.ends id = true) :
    (f.perform a).heard id = f.heard id := by
  have hone := Feed.heard_performAll f [a] id
  rw [turns, turns, List.append_nil, (gone_of_ends htaken ha).2] at hone
  exact hone.trans (List.append_nil _)

end Flowline.Feed
