import Flowline.Status.Record
import Mathlib.Data.List.Induction
import Mathlib.Tactic.ByContra

/-!
# The last write wins

Events are merged one after the other. What a map of records holds after any number of them is
said by the events alone, name by name and field by field: each field has the value that the last
event gave which gave one, and a cleared time is a value.

* `Patch.value?`, `Record.value`: the four fields under one name, so that each law is one
  statement about a `Record.Field`.
* `get?_merge`: what one event does to the record of one name. From it, by induction on the
  events, `recordOf_mergeAll` and `isSome_mergeAll`: what a run of events does.
* `mergeAll_eq_of_given`: maps that are told the same, by name and field, are the same. That
  disjoint runs commute and that only the order per name matters are cases of it.
* `mergeAll_last_write`: the law in full.
-/

namespace Flowline

open Time

/-! ## Fields -/

/-- A field of a record. -/
inductive Record.Field where
  | status
  | startTime
  | endTime
  | details
deriving DecidableEq

/-- What a field holds. -/
def Record.Field.Value : Record.Field → Type
  | status => Status
  | startTime | endTime => Option Instant
  | details => NameMap Json

/-- What the record holds in a field. -/
def Record.value (r : Record) : (f : Record.Field) → f.Value
  | .status => r.status
  | .startTime => r.startTime
  | .endTime => r.endTime
  | .details => r.details

/-- The time that the change gives, `none` within for a cleared one. -/
def TimeChange.value? : TimeChange → Option (Option Instant)
  | keep => none
  | clear => some none
  | set t => some (some t)

/-- What the patch gives for a field, if it provides the field. -/
def Patch.value? (p : Patch) : (f : Record.Field) → Option f.Value
  | .status => p.status
  | .startTime => p.startTime.value?
  | .endTime => p.endTime.value?
  | .details => p.details

theorem Record.ext_value {r r' : Record} (h : ∀ f, r.value f = r'.value f) : r = r' := by
  obtain ⟨status, startTime, endTime, details⟩ := r
  obtain ⟨status', startTime', endTime', details'⟩ := r'
  have hstatus : status = status' := h .status
  have hstart : startTime = startTime' := h .startTime
  have hend : endTime = endTime' := h .endTime
  have hdetails : details = details' := h .details
  rw [hstatus, hstart, hend, hdetails]

theorem TimeChange.apply_eq (change : TimeChange) (old : Option Instant) :
    change.apply old = change.value?.getD old := by
  cases change with
  | keep => rfl
  | clear => rfl
  | set t => rfl

/-- A patch writes what it provides, field by field. -/
theorem Patch.value_apply (p : Patch) (r : Record) (f : Record.Field) :
    (p.apply r).value f = (p.value? f).getD (r.value f) := by
  cases f with
  | status => rfl
  | startTime => exact TimeChange.apply_eq p.startTime r.startTime
  | endTime => exact TimeChange.apply_eq p.endTime r.endTime
  | details => rfl

namespace StatusMap

/-- The record of a name, pending if it has none. -/
def recordOf (m : StatusMap) (name : String) : Record := (m.get? name).getD Record.pending

/-- The map after all events, merged in order. -/
def mergeAll (m : StatusMap) (events : List Patches) : StatusMap := events.foldl merge m

/-- What the last event gives that provides the field for the name. -/
def lastGiven (events : List Patches) (name : String) (f : Record.Field) : Option f.Value :=
  (events.filterMap fun event => (event.get? name).bind fun p => p.value? f).getLast?

/-- Some event provides the field for the name. -/
def Touches (events : List Patches) (name : String) (f : Record.Field) : Prop :=
  ∃ event ∈ events, ∃ p, event.get? name = some p ∧ p.value? f ≠ none

/-! ## One event -/

theorem recordOf_patch (m : StatusMap) (n name : String) (p : Patch) :
    recordOf (patch m n p) name = if n = name then p.apply (recordOf m n) else recordOf m name := by
  unfold recordOf patch
  rw [NameMap.get?_alter]
  split
  · rfl
  · rfl

/-- Patches of distinct names do not get in each other's way. -/
theorem get?_foldl_patch {es : List (String × Patch)} (hes : es.Pairwise fun a b => a.1 < b.1)
    (m : StatusMap) (name : String) :
    (es.foldl (fun m entry => patch m entry.1 entry.2) m).get? name =
      match NameMap.find name es with
      | none => m.get? name
      | some p => some (p.apply (recordOf m name)) := by
  induction es generalizing m with
  | nil => rfl
  | cons entry rest ih =>
    obtain ⟨n, p⟩ := entry
    obtain ⟨hlt, hrest⟩ := List.pairwise_cons.1 hes
    rw [List.foldl_cons, ih hrest, recordOf_patch, NameMap.find]
    by_cases hn : n = name
    · subst hn
      have hnone : NameMap.find n rest = none := NameMap.find_eq_none hlt
      have hget : (patch m n p).get? n = some (p.apply (recordOf m n)) := by
        unfold patch
        rw [NameMap.get?_alter, if_pos rfl]
        rfl
      simp only [hnone, if_true, hget]
    · have hget : (patch m n p).get? name = m.get? name := by
        unfold patch
        rw [NameMap.get?_alter, if_neg hn]
      simp only [if_neg hn, hget]

/-- An event changes the records of the names that it has a patch for. -/
theorem get?_merge (m : StatusMap) (event : Patches) (name : String) :
    (merge m event).get? name =
      match event.get? name with
      | none => m.get? name
      | some p => some (p.apply (recordOf m name)) :=
  get?_foldl_patch event.sorted m name

theorem recordOf_merge (m : StatusMap) (event : Patches) (name : String) (f : Record.Field) :
    (recordOf (merge m event) name).value f =
      ((event.get? name).bind fun p => p.value? f).getD ((recordOf m name).value f) := by
  rw [recordOf, get?_merge]
  cases event.get? name with
  | none => rfl
  | some p => exact p.value_apply (recordOf m name) f

theorem isSome_merge (m : StatusMap) (event : Patches) (name : String) :
    ((merge m event).get? name).isSome = ((m.get? name).isSome || (event.get? name).isSome) := by
  rw [get?_merge]
  cases event.get? name with
  | none => simp
  | some p => simp

/-! ## Runs of events -/

theorem mergeAll_concat (m : StatusMap) (events : List Patches) (event : Patches) :
    mergeAll m (events ++ [event]) = merge (mergeAll m events) event := by
  unfold mergeAll
  rw [List.foldl_append]
  rfl

theorem lastGiven_append (events others : List Patches) (name : String) (f : Record.Field) :
    lastGiven (events ++ others) name f =
      (lastGiven others name f).or (lastGiven events name f) := by
  unfold lastGiven
  rw [List.filterMap_append, List.getLast?_append]

theorem lastGiven_singleton (event : Patches) (name : String) (f : Record.Field) :
    lastGiven [event] name f = (event.get? name).bind fun p => p.value? f := by
  unfold lastGiven
  cases h : (event.get? name).bind fun p => p.value? f with
  | none => simp [h]
  | some v => simp [h]

/-- After a run, each field holds what was given for it last, and what it held before if nothing
was. -/
theorem recordOf_mergeAll (m : StatusMap) (events : List Patches) (name : String)
    (f : Record.Field) :
    (recordOf (mergeAll m events) name).value f =
      (lastGiven events name f).getD ((recordOf m name).value f) := by
  induction events using List.reverseRecOn with
  | nil => rfl
  | append_singleton events event ih =>
    rw [mergeAll_concat, recordOf_merge, ih, lastGiven_append, lastGiven_singleton]
    cases (event.get? name).bind fun p => p.value? f with
    | none => rfl
    | some v => rfl

/-- After a run, the names with a record are those that had one and those of the events. -/
theorem isSome_mergeAll (m : StatusMap) (events : List Patches) (name : String) :
    ((mergeAll m events).get? name).isSome =
      ((m.get? name).isSome || events.any fun event => (event.get? name).isSome) := by
  induction events using List.reverseRecOn with
  | nil => simp [mergeAll]
  | append_singleton events event ih =>
    rw [mergeAll_concat, isSome_merge, ih, List.any_append]
    simp [Bool.or_assoc]

theorem get?_eq_of_recordOf {m m' : StatusMap} {name : String}
    (hname : (m.get? name).isSome = (m'.get? name).isSome)
    (hrecord : ∀ f, (recordOf m name).value f = (recordOf m' name).value f) :
    m.get? name = m'.get? name := by
  have heq : recordOf m name = recordOf m' name := Record.ext_value hrecord
  unfold recordOf at heq
  cases h : m.get? name with
  | none =>
    cases h' : m'.get? name with
    | none => rfl
    | some r' => simp [h, h'] at hname
  | some r =>
    cases h' : m'.get? name with
    | none => simp [h, h'] at hname
    | some r' =>
      rw [h, h'] at heq
      exact congrArg some heq

/-- Runs that mention the same names and give the same for each field end in the same map. -/
theorem mergeAll_eq_of_given {m : StatusMap} {events others : List Patches}
    (hnames : ∀ name, (events.any fun event => (event.get? name).isSome) =
      others.any fun event => (event.get? name).isSome)
    (hgiven : ∀ name f, (lastGiven events name f).getD ((recordOf m name).value f) =
      (lastGiven others name f).getD ((recordOf m name).value f)) :
    mergeAll m events = mergeAll m others := by
  refine NameMap.ext_get? fun name => get?_eq_of_recordOf ?_ fun f => ?_
  · rw [isSome_mergeAll, isSome_mergeAll, hnames]
  · rw [recordOf_mergeAll, recordOf_mergeAll, hgiven]

/-! ## What follows -/

theorem lastGiven_eq_none {events : List Patches} {name : String} {f : Record.Field}
    (h : ¬ Touches events name f) : lastGiven events name f = none := by
  unfold lastGiven
  rw [List.getLast?_eq_none_iff, List.filterMap_eq_nil_iff]
  intro event hevent
  cases hp : event.get? name with
  | none => rfl
  | some p =>
    by_contra hvalue
    exact h ⟨event, hevent, p, hp, hvalue⟩

/-- Runs that touch no field of a name both commute. -/
theorem mergeAll_append_comm {m : StatusMap} {events others : List Patches}
    (h : ∀ name f, ¬ (Touches events name f ∧ Touches others name f)) :
    mergeAll m (events ++ others) = mergeAll m (others ++ events) := by
  refine mergeAll_eq_of_given (fun name => ?_) fun name f => ?_
  · rw [List.any_append, List.any_append, Bool.or_comm]
  · rw [lastGiven_append, lastGiven_append]
    by_cases htouch : Touches events name f
    · have hnone := lastGiven_eq_none fun hothers => h name f ⟨htouch, hothers⟩
      rw [hnone, Option.none_or, Option.or_none]
    · rw [lastGiven_eq_none htouch, Option.none_or, Option.or_none]

theorem mergeAll_repeat (m : StatusMap) (events : List Patches) (event : Patches) :
    mergeAll m (events ++ [event, event]) = mergeAll m (events ++ [event]) := by
  refine mergeAll_eq_of_given (fun name => ?_) fun name f => ?_
  · simp
  · have htwice : lastGiven [event, event] name f = lastGiven [event] name f := by
      have := lastGiven_append [event] [event] name f
      rw [Option.or_self] at this
      exact this
    rw [lastGiven_append, lastGiven_append, htwice]

/-- The patches for a name, in the order of their delivery. -/
def deliveries (name : String) (events : List Patches) : List Patch :=
  events.filterMap fun event => event.get? name

theorem lastGiven_eq_deliveries (events : List Patches) (name : String) (f : Record.Field) :
    lastGiven events name f =
      ((deliveries name events).filterMap fun p => p.value? f).getLast? := by
  unfold lastGiven deliveries
  rw [List.filterMap_filterMap]

theorem any_eq_deliveries (events : List Patches) (name : String) :
    (events.any fun event => (event.get? name).isSome) = !(deliveries name events).isEmpty := by
  unfold deliveries
  induction events with
  | nil => rfl
  | cons event events ih =>
    cases h : event.get? name with
    | none => simp [h, ih]
    | some p => simp [h]

/-- Only the order of the patches for each single name matters. -/
theorem mergeAll_eq_of_deliveries {m : StatusMap} {events others : List Patches}
    (h : ∀ name, deliveries name events = deliveries name others) :
    mergeAll m events = mergeAll m others := by
  refine mergeAll_eq_of_given (fun name => ?_) fun name f => ?_
  · rw [any_eq_deliveries, any_eq_deliveries, h]
  · rw [lastGiven_eq_deliveries, lastGiven_eq_deliveries, h]

/-- The last write wins: after any run of events the names are those of the map and of the events,
and each field of a name holds what the last event gave that provides it, else what it held at the
start, else what a pending record holds. So runs that touch different fields commute, an event
may be merged twice, and deliveries may change places while the order for each name stays. -/
theorem mergeAll_last_write (m : StatusMap) (events : List Patches) :
    (∀ name, name ∈ (mergeAll m events).names ↔
      name ∈ m.names ∨ ∃ event ∈ events, name ∈ event.names) ∧
    (∀ name f, (recordOf (mergeAll m events) name).value f =
      (lastGiven events name f).getD ((recordOf m name).value f)) ∧
    (∀ others, (∀ name f, ¬ (Touches events name f ∧ Touches others name f)) →
      mergeAll m (events ++ others) = mergeAll m (others ++ events)) ∧
    (∀ event, mergeAll m (events ++ [event, event]) = mergeAll m (events ++ [event])) ∧
    (∀ others, (∀ name, deliveries name events = deliveries name others) →
      mergeAll m events = mergeAll m others) := by
  refine ⟨fun name => ?_, recordOf_mergeAll m events, fun others h => mergeAll_append_comm h,
    mergeAll_repeat m events, fun others h => mergeAll_eq_of_deliveries h⟩
  have hsome := isSome_mergeAll m events name
  rw [← NameMap.isSome_get?, hsome, Bool.or_eq_true, NameMap.isSome_get?, List.any_eq_true]
  simp only [NameMap.isSome_get?]

end StatusMap

end Flowline
