import Flowline.Proofs.Json.Integral
import Flowline.Proofs.Time.Written
import Flowline.Status.Format

/-!
# Statuses and records are read back

A record is proper if its times are and its details are values that can be kept: objects sorted,
no floats. What is written for a proper record is read as the record (`Record.reads_toJson`).
-/

namespace Flowline

open Json Time

/-! ## Members that may be left out -/

/-- A member that is left out if there is no value spells the value or none. -/
theorem spelled_memberIfSome {α : Type} {r : Reader α} {f : α → Json} {o : Option α} {d : Nat}
    (name : String) (h : ∀ a ∈ o, r.Reads d (f a) a ∧ f a ≠ .null) {αs : List Type}
    {rest : Fields αs} {members : List (String × Json)} {values : Values αs}
    (hrest : rest.Spelled d members values) :
    (Fields.cons (.withDefault name r.optional none) rest).Spelled d
      (Json.memberIfSome name f o ++ members) (o, values) := by
  cases o with
  | none => exact .absent rfl hrest
  | some a => exact .present ((h a rfl).1.optional (h a rfl).2) hrest

theorem isIntegral_memberIfSome {α : Type} {name : String} {f : α → Json} {o : Option α}
    (h : ∀ a ∈ o, (f a).IsIntegral) : ∀ e ∈ Json.memberIfSome name f o, e.2.IsIntegral := by
  cases o with
  | none => exact List.forall_mem_nil _
  | some a =>
    intro e he
    rw [List.mem_singleton.1 he]
    exact h a rfl

/-! ## Statuses -/

/-- The name of a status is one of the words that stand for it. -/
@[simp] theorem Status.normalize_name (s : Status) : Status.normalize s.name = s := by
  cases s <;> decide +kernel

theorem Status.reads_toJson (s : Status) : Status.reader.Reads 0 s.toJson s := by
  have hread := (reads_text s.name).map Status.normalize
  rwa [Status.normalize_name] at hread

/-! ## Times -/

theorem reads_zonedTime {t : Instant} (h : t.IsProper) : zonedTimeReader.Reads 0 t.toJson t := by
  intro mode _
  simp only [zonedTimeReader, Instant.toJson, Node.ofJson, readText?, Token.good, Break.fault,
    zonedTimestamp?_text h, bind, Except.bind]
  rfl

/-- A time that may be missing is written as `null` then. -/
theorem reads_zonedTime_optional {o : Option Instant} (h : ∀ t ∈ o, t.IsProper) :
    zonedTimeReader.optional.Reads 0 (.ofOption Instant.toJson o) o := by
  cases o with
  | none => exact fun _ _ => rfl
  | some t => exact (reads_zonedTime (h t rfl)).optional fun hnull => nomatch hnull

/-! ## Details -/

/-- Details that can be kept: sorted values without floats. -/
def IsKept (details : NameMap Json) : Prop :=
  ∀ e ∈ details.entries, e.2.sorted = e.2 ∧ e.2.IsIntegral

instance (details : NameMap Json) : Decidable (IsKept details) :=
  inferInstanceAs (Decidable (∀ _ ∈ _, _))

theorem IsKept.isIntegral {details : NameMap Json} (h : IsKept details) :
    (Json.ofNameMap details).IsIntegral := isIntegral_object.2 fun e he => (h e he).2

/-! ## Records -/

namespace Record

/-- The times are proper and the details can be kept. -/
structure IsProper (r : Record) : Prop where
  startTime : ∀ t ∈ r.startTime, t.IsProper
  endTime : ∀ t ∈ r.endTime, t.IsProper
  details : IsKept r.details

instance (r : Record) : Decidable r.IsProper :=
  have := Option.decidableForallMem (p := Instant.IsProper)
  decidable_of_iff ((∀ t ∈ r.startTime, t.IsProper) ∧ (∀ t ∈ r.endTime, t.IsProper) ∧
      IsKept r.details)
    ⟨fun h => ⟨h.1, h.2.1, h.2.2⟩, fun h => ⟨h.startTime, h.endTime, h.details⟩⟩

theorem isProper_ofStatus (s : Status) : (Record.ofStatus s).IsProper where
  startTime _ h := nomatch h
  endTime _ h := nomatch h
  details _ h := nomatch h

variable {r : Record}

/-- A proper record is read back, its details being two levels below it. -/
theorem reads_toJson (h : r.IsProper) {d : Nat} (hd : ∀ e ∈ r.details.entries, e.2.depth ≤ d) :
    Record.reader.Reads (d + 2) r.toJson r :=
  (reads_record "struct StatusRecord" rfl
    (.present (r.status.reads_toJson.mono (Nat.zero_le _))
    (.present ((reads_zonedTime_optional h.startTime).mono (Nat.zero_le _))
    (.present ((reads_zonedTime_optional h.endTime).mono (Nat.zero_le _))
    (.present (reads_anyMap (fun e he => (h.details e he).1) hd) .nil))))).map _

theorem isIntegral_ofOption (o : Option Instant) : (Json.ofOption Instant.toJson o).IsIntegral := by
  cases o with
  | none => exact isIntegral_null
  | some t => exact isIntegral_text t.text

theorem IsProper.isIntegral (h : r.IsProper) : r.toJson.IsIntegral := by
  simp only [toJson, isIntegral_object, List.forall_mem_cons]
  exact ⟨isIntegral_text _, isIntegral_ofOption _, isIntegral_ofOption _, h.details.isIntegral,
    List.forall_mem_nil _⟩

end Record

end Flowline
