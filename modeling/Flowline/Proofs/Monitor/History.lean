import Flowline.Monitor.Call
import Flowline.Proofs.Monitor.Entries
import Flowline.Proofs.Monitor.Registering
import Flowline.Proofs.Status.Seeding
import Mathlib.Data.List.DropRight

/-!
# What the history of a monitor tells

All that a monitor shows is told by the exchanges that it has had. What is known of a flow goes back
to its last removal: which registrations there were since then (`registrations`) and which events
were accepted (`accepted`). `Follows` ties a monitor to its history flow by flow; one more call
keeps it (`Follows.concat`), so it holds after any calls (`follows_performAll`). The snapshot of a
flow is that of its last registration, with the place of that call among all registrations as its
version (`IsCurrent`). `told_performAll` says all of it at once.
-/

namespace Flowline.Monitor

open StatusMap

/-! ## Reading a history -/

namespace Exchange

/-- What a call has registered. -/
def registration? (x : Exchange) : Option Registration :=
  match x.call with
  | .register r => some r
  | _ => none

/-- The patches of an event that was accepted. -/
def accepted? : Exchange → Option Patches
  | ⟨.apply e, .applied (.ok _)⟩ => some e.stages
  | _ => none

def isRemoval (x : Exchange) : Bool :=
  match x.call with
  | .remove _ => true
  | _ => false

end Exchange

/-- The exchanges about a flow after its last removal. -/
def sinceRemoval (f : String) (xs : List Exchange) : List Exchange :=
  (xs.filter fun x => x.call.flowName = f).rtakeWhile fun x => !x.isRemoval

/-- What was registered for a flow after its last removal. -/
def registrations (f : String) (xs : List Exchange) : List Registration :=
  (sinceRemoval f xs).filterMap Exchange.registration?

/-- The events of a flow that were accepted after its last removal. -/
def accepted (f : String) (xs : List Exchange) : List Patches :=
  (sinceRemoval f xs).filterMap Exchange.accepted?

/-- The names that registrations declare. -/
def declaredBy (rs : List Registration) : List String := rs.flatMap fun r => r.graph.subStageNames

section Reading

variable {f : String} {xs : List Exchange} {x : Exchange}

theorem sinceRemoval_concat_of_ne (h : x.call.flowName ≠ f) :
    sinceRemoval f (xs ++ [x]) = sinceRemoval f xs := by
  simp [sinceRemoval, List.filter_append, h]

theorem sinceRemoval_concat_of_eq (h : x.call.flowName = f) :
    sinceRemoval f (xs ++ [x]) = if x.isRemoval then [] else sinceRemoval f xs ++ [x] := by
  have hfilter : (xs ++ [x]).filter (fun x => x.call.flowName = f) =
      xs.filter (fun x => x.call.flowName = f) ++ [x] := by
    simp [List.filter_append, h]
  rw [sinceRemoval, hfilter, List.rtakeWhile_concat]
  cases x.isRemoval with
  | true => rfl
  | false => rfl

theorem registrations_concat (x : Exchange) (h : x.call.flowName = f) (hx : x.isRemoval = false) :
    registrations f (xs ++ [x]) = registrations f xs ++ x.registration?.toList := by
  rw [registrations, sinceRemoval_concat_of_eq h, hx, registrations]
  cases hr : x.registration? with
  | none => simp [List.filterMap_append, hr]
  | some r => simp [List.filterMap_append, hr]

theorem accepted_concat (x : Exchange) (h : x.call.flowName = f) (hx : x.isRemoval = false) :
    accepted f (xs ++ [x]) = accepted f xs ++ x.accepted?.toList := by
  rw [accepted, sinceRemoval_concat_of_eq h, hx, accepted]
  cases ha : x.accepted? with
  | none => simp [List.filterMap_append, ha]
  | some p => simp [List.filterMap_append, ha]

theorem declaredBy_concat (rs : List Registration) (r : Registration) :
    declaredBy (rs ++ [r]) = declaredBy rs ++ r.graph.subStageNames := by
  simp [declaredBy, List.flatMap_append]

end Reading

/-! ## One call -/

section OneCall

variable {m : Monitor} {f : String}

/-- A call about one flow changes nothing that is known of another. -/
theorem perform_of_ne {c : Call} (h : c.flowName ≠ f) :
    (m.perform c).2.snapshot? f = m.snapshot? f ∧
      (m.perform c).2.board.get? f = m.board.get? f := by
  cases c with
  | register r =>
    refine ⟨?_, ?_⟩
    · exact (snapshot?_register m r f).trans (if_neg h)
    · exact (m.board.get?_seed f _).trans (if_neg h)
  | remove name =>
    refine ⟨?_, ?_⟩
    · exact (m.registry.get?_remove f name).trans (if_neg h)
    · exact (m.board.get?_remove f name).trans (if_neg h)
  | apply e =>
    cases hc : m.contains e.flowName with
    | true =>
      rw [perform_apply_of_contains hc]
      exact ⟨rfl, (m.board.get?_apply f e).trans (if_neg h)⟩
    | false =>
      rw [perform_apply_of_not_contains hc]
      exact ⟨rfl, rfl⟩

/-- Registering a flow again leaves its records as they are. -/
theorem status?_register {r : Registration} {map : StatusMap} {n : String} {v : Record}
    (hmap : m.status? r.flowName = some map) (hv : map.get? n = some v) :
    ∃ map', (m.perform (.register r)).2.status? r.flowName = some map' ∧ map'.get? n = some v := by
  have hold : m.board.mapOf r.flowName = map := by
    unfold status? at hmap
    split at hmap
    · exact Option.some.inj hmap
    · cases hmap
  refine ⟨(m.board.mapOf r.flowName).seed r.graph.subStageNames, ?_, ?_⟩
  · have hcontains : (m.register r).2.contains r.flowName = true := by
      have hget := snapshot?_register m r r.flowName
      rw [if_pos rfl] at hget
      exact congrArg Option.isSome hget
    have hstatus : (m.register r).2.status? r.flowName =
        some ((m.register r).2.board.mapOf r.flowName) := if_pos hcontains
    rw [mapOf_register, if_pos rfl] at hstatus
    exact hstatus
  · rw [hold]
    exact get?_seed_of_eq_some hv _

end OneCall

/-! ## Histories -/

theorem exchanges_append (m : Monitor) (calls others : List Call) :
    m.exchanges (calls ++ others) = m.exchanges calls ++ (m.performAll calls).exchanges others := by
  induction calls generalizing m with
  | nil => rfl
  | cons c calls ih =>
    rw [List.cons_append, exchanges, ih]
    rfl

theorem performAll_concat (m : Monitor) (calls : List Call) (c : Call) :
    m.performAll (calls ++ [c]) = ((m.performAll calls).perform c).2 := List.foldl_append

/-- The status of a flow as a history tells it. -/
def mapTold (f : String) (xs : List Exchange) : StatusMap :=
  mergeAll (StatusMap.seed NameMap.empty (declaredBy (registrations f xs))) (accepted f xs)

/-- A monitor is, as to one flow, as its history tells. -/
structure Follows (f : String) (xs : List Exchange) (m : Monitor) : Prop where
  contains_iff : m.contains f = true ↔ registrations f xs ≠ []
  hasMap_iff : (m.board.get? f).isSome = true ↔ m.contains f = true
  map_eq : m.board.mapOf f = mapTold f xs
  /-- Events are accepted of registered flows only. -/
  quiet : registrations f xs = [] → accepted f xs = []

theorem follows_empty (f : String) : Follows f [] empty where
  contains_iff := by
    constructor
    · intro h
      cases h
    · intro h
      exact absurd rfl h
  hasMap_iff := Iff.rfl
  map_eq := rfl
  quiet := fun _ => rfl

section Follows

variable {f : String} {xs ys : List Exchange} {m m' : Monitor}

/-- What neither the history nor the monitor says of the flow is of no matter. -/
theorem Follows.congr (h : Follows f xs m)
    (hregistrations : registrations f ys = registrations f xs)
    (haccepted : accepted f ys = accepted f xs) (hsnapshot : m'.snapshot? f = m.snapshot? f)
    (hget : m'.board.get? f = m.board.get? f) : Follows f ys m' := by
  have hcontains : m'.contains f = m.contains f := congrArg Option.isSome hsnapshot
  constructor
  · rw [hcontains, hregistrations]
    exact h.contains_iff
  · rw [hget, hcontains]
    exact h.hasMap_iff
  · rw [mapTold, hregistrations, haccepted, ← mapTold, ← h.map_eq, Board.mapOf, hget, ← Board.mapOf]
  · rw [hregistrations, haccepted]
    exact h.quiet

theorem Follows.register (h : Follows f xs m) {r : Registration} (hf : r.flowName = f)
    (answer : Answer) : Follows f (xs ++ [⟨.register r, answer⟩]) (m.register r).2 := by
  have hregistrations : registrations f (xs ++ [⟨.register r, answer⟩]) =
      registrations f xs ++ [r] := registrations_concat ⟨.register r, answer⟩ hf rfl
  have haccepted : accepted f (xs ++ [⟨.register r, answer⟩]) = accepted f xs :=
    (accepted_concat ⟨.register r, answer⟩ hf rfl).trans (List.append_nil _)
  have hcontains : (m.register r).2.contains f = true :=
    congrArg Option.isSome ((snapshot?_register m r f).trans (if_pos hf))
  have hget : (m.register r).2.board.get? f =
      some ((m.board.mapOf f).seed r.graph.subStageNames) :=
    (m.board.get?_seed f _).trans (if_pos hf)
  constructor
  · rw [hregistrations]
    simp [hcontains]
  · rw [hget]
    simp [hcontains]
  · rw [Board.mapOf_of_get? hget, h.map_eq, mapTold, mapTold, hregistrations, haccepted,
      declaredBy_concat, seed_append, seed_mergeAll]
  · rw [hregistrations]
    intro hnil
    simp at hnil

theorem follows_remove (f : String) (xs : List Exchange) (m : Monitor) (answer : Answer) :
    Follows f (xs ++ [⟨.remove f, answer⟩]) (m.remove f) := by
  have hsince : sinceRemoval f (xs ++ [⟨.remove f, answer⟩]) = [] := sinceRemoval_concat_of_eq rfl
  have hcontains : (m.remove f).contains f = false :=
    congrArg Option.isSome ((m.registry.get?_remove f f).trans (if_pos rfl))
  have hget : (m.remove f).board.get? f = none :=
    (m.board.get?_remove f f).trans (if_pos rfl)
  constructor
  · simp [hcontains, registrations, hsince]
  · rw [hget, hcontains]
    rfl
  · rw [Board.mapOf_of_eq_none hget, mapTold, registrations, accepted, hsince]
    rfl
  · intro _
    rw [accepted, hsince]
    rfl

theorem Follows.accept (h : Follows f xs m) {e : Event} (hf : e.flowName = f)
    (hc : m.contains f = true) (map : StatusMap) :
    Follows f (xs ++ [⟨.apply e, .applied (.ok map)⟩]) { m with board := m.board.apply e } := by
  have hregistrations : registrations f (xs ++ [⟨.apply e, .applied (.ok map)⟩]) =
      registrations f xs :=
    (registrations_concat ⟨.apply e, .applied (.ok map)⟩ hf rfl).trans (List.append_nil _)
  have haccepted : accepted f (xs ++ [⟨.apply e, .applied (.ok map)⟩]) =
      accepted f xs ++ [e.stages] := accepted_concat ⟨.apply e, .applied (.ok map)⟩ hf rfl
  have hget : (m.board.apply e).get? f = some ((m.board.mapOf f).merge e.stages) :=
    (m.board.get?_apply f e).trans (if_pos hf)
  constructor
  · rw [hregistrations]
    exact h.contains_iff
  · rw [hget]
    simp only [Option.isSome_some, true_iff]
    exact hc
  · rw [Board.mapOf_of_get? hget, h.map_eq, mapTold, mapTold, hregistrations, haccepted,
      mergeAll_concat]
  · rw [hregistrations]
    intro hnil
    exact absurd hnil (h.contains_iff.1 hc)

/-- One more call, about this flow or another. -/
theorem Follows.concat (h : Follows f xs m) (c : Call) :
    Follows f (xs ++ [⟨c, (m.perform c).1⟩]) (m.perform c).2 := by
  by_cases hf : c.flowName = f
  · cases c with
    | register r => exact h.register hf _
    | remove name =>
      obtain rfl : name = f := hf
      exact follows_remove name xs m _
    | apply e =>
      cases hc : m.contains e.flowName with
      | true =>
        rw [perform_apply_of_contains hc]
        exact h.accept hf (hf ▸ hc) _
      | false =>
        rw [perform_apply_of_not_contains hc]
        apply h.congr ?_ ?_ rfl rfl
        · exact (registrations_concat ⟨.apply e, _⟩ hf rfl).trans (List.append_nil _)
        · exact (accepted_concat ⟨.apply e, _⟩ hf rfl).trans (List.append_nil _)
  · have hsince : sinceRemoval f (xs ++ [⟨c, (m.perform c).1⟩]) = sinceRemoval f xs :=
      sinceRemoval_concat_of_ne hf
    obtain ⟨hsnapshot, hget⟩ := perform_of_ne (m := m) hf
    apply h.congr ?_ ?_ hsnapshot hget
    · rw [registrations, hsince, ← registrations]
    · rw [accepted, hsince, ← accepted]

end Follows

theorem follows_performAll (f : String) (calls : List Call) :
    Follows f (empty.exchanges calls) (empty.performAll calls) := by
  induction calls using List.reverseRecOn with
  | nil => exact follows_empty f
  | append_singleton calls c ih =>
    rw [performAll_concat, exchanges_append]
    exact ih.concat c

/-! ## The current snapshot -/

/-- The number of registrations in a history. -/
def registerCount (xs : List Exchange) : Nat := xs.countP fun x => x.registration?.isSome

theorem lastVersion_perform (m : Monitor) (c : Call) :
    (m.perform c).2.registry.lastVersion =
      m.registry.lastVersion + registerCount [⟨c, (m.perform c).1⟩] := by
  cases c with
  | register r => rfl
  | remove name => rfl
  | apply e => exact congrArg Registry.lastVersion registry_perform_apply

theorem lastVersion_performAll (calls : List Call) :
    (empty.performAll calls).registry.lastVersion = registerCount (empty.exchanges calls) := by
  induction calls using List.reverseRecOn with
  | nil => rfl
  | append_singleton calls c ih =>
    rw [performAll_concat, exchanges_append, lastVersion_perform, ih, registerCount, registerCount,
      ← List.countP_append]
    rfl

/-- The snapshot that the last registration of a flow was answered with. After it the flow was not
removed, and its version counts the registrations up to it, those of other flows included. -/
def IsCurrent (f : String) (xs : List Exchange) (s : Snapshot) : Prop :=
  ∃ before r after, xs = before ++ ⟨.register r, .registered s⟩ :: after ∧ r.flowName = f ∧
    (∀ x ∈ after, x.call.flowName = f → x.registration? = none ∧ x.isRemoval = false) ∧
    s = .ofRegistration (registerCount before + 1) r

section IsCurrent

variable {f : String} {xs : List Exchange} {x : Exchange} {s : Snapshot}

theorem IsCurrent.concat (h : IsCurrent f xs s)
    (hx : x.call.flowName = f → x.registration? = none ∧ x.isRemoval = false) :
    IsCurrent f (xs ++ [x]) s := by
  obtain ⟨before, r, after, rfl, hf, hafter, hs⟩ := h
  refine ⟨before, r, after ++ [x], by simp, hf, ?_, hs⟩
  intro y hy
  rcases List.mem_append.1 hy with hy | hy
  · exact hafter y hy
  · obtain rfl := List.mem_singleton.1 hy
    exact hx

/-- The registration of the current snapshot is one since the last removal. -/
theorem IsCurrent.exists_registration (h : IsCurrent f xs s) :
    ∃ r ∈ registrations f xs, r.graph = s.graph := by
  obtain ⟨before, r, after, rfl, hf, hafter, rfl⟩ := h
  refine ⟨r, ?_, rfl⟩
  induction after using List.reverseRecOn with
  | nil =>
    rw [registrations_concat ⟨.register r, _⟩ hf rfl]
    exact List.mem_append_right _ (List.mem_singleton_self r)
  | append_singleton after x ih =>
    have hmem := ih fun y hy => hafter y (List.mem_append_left _ hy)
    rw [← List.cons_append, ← List.append_assoc]
    by_cases hx : x.call.flowName = f
    · have hnot := (hafter x (by simp) hx).2
      rw [registrations_concat x hx hnot]
      exact List.mem_append_left _ hmem
    · rw [registrations, sinceRemoval_concat_of_ne hx]
      exact hmem

theorem isCurrent_performAll (calls : List Call)
    (hs : (empty.performAll calls).snapshot? f = some s) :
    IsCurrent f (empty.exchanges calls) s := by
  induction calls using List.reverseRecOn with
  | nil => cases hs
  | append_singleton calls c ih =>
    rw [performAll_concat] at hs
    rw [exchanges_append]
    by_cases hf : c.flowName = f
    · cases c with
      | register r =>
        have hget := (snapshot?_register (empty.performAll calls) r f).trans (if_pos hf)
        rw [lastVersion_performAll] at hget
        obtain rfl := Option.some.inj (hs.symm.trans hget)
        refine ⟨_, r, [], ?_, hf, by simp, rfl⟩
        rw [← lastVersion_performAll]
        rfl
      | remove name =>
        have hget : ((empty.performAll calls).remove name).snapshot? f = none :=
          (Registry.get?_remove _ f name).trans (if_pos hf)
        cases hs.symm.trans hget
      | apply e =>
        have hsame : ((empty.performAll calls).perform (.apply e)).2.snapshot? f =
            (empty.performAll calls).snapshot? f :=
          congrArg (Registry.get? · f) registry_perform_apply
        exact (ih (hsame ▸ hs)).concat fun _ => ⟨rfl, rfl⟩
    · rw [(perform_of_ne hf).1] at hs
      exact (ih hs).concat fun h => absurd h hf

end IsCurrent

/-! ## The listing -/

theorem isNamed_perform {m : Monitor} (h : m.IsNamed) (c : Call) : (m.perform c).2.IsNamed := by
  cases c with
  | register r => exact isNamed_register m h r
  | remove name =>
    intro f s hs
    have hget := (m.registry.get?_remove f name).symm.trans hs
    split at hget
    · cases hget
    · exact h f s hget
  | apply e =>
    intro f s hs
    exact h f s ((congrArg (Registry.get? · f) registry_perform_apply).symm.trans hs)

theorem isNamed_performAll (calls : List Call) : (empty.performAll calls).IsNamed := by
  induction calls using List.reverseRecOn with
  | nil => exact isNamed_empty
  | append_singleton calls c ih =>
    rw [performAll_concat]
    exact isNamed_perform ih c

section Listing

variable {m : Monitor}

/-- The listing goes by the names under which the snapshots are held. -/
theorem map_name_flows (h : m.IsNamed) : m.flows.map FlowSummary.name = m.registry.flows.names := by
  rw [flows, Registry.list, NameMap.values, NameMap.names, List.map_map, List.map_map]
  apply List.map_congr_left
  intro entry hentry
  exact h entry.1 entry.2 (NameMap.get?_eq_some_iff.2 hentry)

theorem pairwise_flows (h : m.IsNamed) : m.flows.Pairwise fun a b => a.name < b.name := by
  rw [← List.pairwise_map (f := FlowSummary.name), map_name_flows h, NameMap.names,
    List.pairwise_map]
  exact m.registry.flows.sorted

theorem contains_iff_listed (h : m.IsNamed) (f : String) :
    m.contains f = true ↔ ∃ entry ∈ m.flows, entry.name = f := by
  have hmem : m.contains f = true ↔ f ∈ m.flows.map FlowSummary.name := by
    rw [map_name_flows h]
    exact m.registry.flows.isSome_get? f
  rw [hmem, List.mem_map]

end Listing

/-! ## All of it -/

/-- A monitor shows what the exchanges that it has had tell. -/
structure Told (xs : List Exchange) (m : Monitor) : Prop where
  /-- A flow is registered if there was a registration since its last removal. -/
  contains_iff : ∀ f, m.contains f = true ↔ registrations f xs ≠ []
  hasMap_iff : ∀ f, (m.board.get? f).isSome = true ↔ m.contains f = true
  /-- The map of a registered flow has the names that were declared or patched since its last
  removal, each with the pending record on which the accepted patches were laid in order. -/
  status : ∀ f, m.contains f = true → ∃ map, m.status? f = some map ∧
    (∀ n, n ∈ map.names ↔ (∃ r ∈ registrations f xs, n ∈ r.graph.subStageNames) ∨
      ∃ event ∈ accepted f xs, n ∈ event.names) ∧
    ∀ n ∈ map.names, map.get? n =
      some ((deliveries n (accepted f xs)).foldl (fun r p => p.apply r) Record.pending)
  /-- Registering a flow again alters no record that is there. -/
  kept : ∀ (r : Registration) map n v, m.status? r.flowName = some map → map.get? n = some v →
    ∃ map', (m.perform (.register r)).2.status? r.flowName = some map' ∧ map'.get? n = some v
  covered : ∀ f s, m.snapshot? f = some s →
    ∃ map, m.status? f = some map ∧ ∀ n ∈ s.graph.subStageNames, n ∈ map.names
  refused : ∀ e : Event, m.contains e.flowName = false →
    m.perform (.apply e) = (.applied (.error (.flowNotRegistered e.flowName)), m)
  current : ∀ f s, m.snapshot? f = some s → IsCurrent f xs s
  sorted : m.flows.Pairwise fun a b => a.name < b.name
  listed_iff : ∀ f, m.contains f = true ↔ ∃ entry ∈ m.flows, entry.name = f
  counts : ∀ entry ∈ m.flows, ∃ s, m.snapshot? entry.name = some s ∧
    entry.version = s.version ∧ entry.stageCount = s.graph.stages.length ∧
    entry.categoryCount = s.graph.categories.length ∧
    entry.nodeCount = s.graph.categories.length + s.graph.stages.length ∧
    entry.edgeCount = s.graph.edges.length

section Told

variable {f : String} {xs : List Exchange} {m : Monitor}

theorem mem_names_mapTold (f : String) (xs : List Exchange) (n : String) :
    n ∈ (mapTold f xs).names ↔ (∃ r ∈ registrations f xs, n ∈ r.graph.subStageNames) ∨
      ∃ event ∈ accepted f xs, n ∈ event.names := by
  have hseeded : ((StatusMap.seed NameMap.empty (declaredBy (registrations f xs))).get? n).isSome =
      true ↔ ∃ r ∈ registrations f xs, n ∈ r.graph.subStageNames := by
    rw [isSome_seed, declaredBy, List.mem_flatMap]
    apply or_iff_right
    intro h
    cases h
  rw [← NameMap.isSome_get?, mapTold, isSome_mergeAll, Bool.or_eq_true, hseeded, List.any_eq_true]
  simp only [NameMap.isSome_get?]

theorem get?_mapTold {n : String} (h : n ∈ (mapTold f xs).names) :
    (mapTold f xs).get? n =
      some ((deliveries n (accepted f xs)).foldl (fun r p => p.apply r) Record.pending) := by
  obtain ⟨v, hv⟩ := Option.isSome_iff_exists.1 ((NameMap.isSome_get? _ n).2 h)
  have hrecord : recordOf (mapTold f xs) n = v := by
    rw [recordOf, hv]
    rfl
  rw [hv, ← hrecord, mapTold, recordOf_mergeAll_eq_foldl, recordOf_seed]
  rfl

theorem Follows.status? (h : Follows f xs m) (hc : m.contains f = true) :
    m.status? f = some (mapTold f xs) := by
  rw [Monitor.status?, if_pos hc, h.map_eq]

end Told

/-- After any calls, what a monitor shows is told by the history of these calls. -/
theorem told_performAll (calls : List Call) :
    Told (empty.exchanges calls) (empty.performAll calls) := by
  have hfollows := fun f => follows_performAll f calls
  have hnamed := isNamed_performAll calls
  constructor
  · exact fun f => (hfollows f).contains_iff
  · exact fun f => (hfollows f).hasMap_iff
  · intro f hc
    refine ⟨_, (hfollows f).status? hc, mem_names_mapTold f _, ?_⟩
    intro n hn
    exact get?_mapTold hn
  · intro r map n v hmap hv
    exact status?_register hmap hv
  · intro f s hs
    have hc : (empty.performAll calls).contains f = true := congrArg Option.isSome hs
    refine ⟨_, (hfollows f).status? hc, ?_⟩
    intro n hn
    obtain ⟨r, hr, hgraph⟩ := (isCurrent_performAll calls hs).exists_registration
    apply (mem_names_mapTold f _ n).2
    exact .inl ⟨r, hr, hgraph ▸ hn⟩
  · intro e he
    exact perform_apply_of_not_contains he
  · intro f s hs
    exact isCurrent_performAll calls hs
  · exact pairwise_flows hnamed
  · exact contains_iff_listed hnamed
  · intro entry hentry
    obtain ⟨f, s, hs, rfl⟩ := (mem_flows_iff _).1 hentry
    refine ⟨s, ?_, rfl, rfl, rfl, rfl, rfl⟩
    have hname : s.summary.name = f := hnamed f s hs
    rw [hname]
    exact hs

end Flowline.Monitor
