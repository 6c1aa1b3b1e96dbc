import Flowline.Proofs.Files.Places
import Flowline.Proofs.Registration.RoundTrip
import Flowline.Store

/-!
# The file of a flow

A name that a flow may have makes a plain file name with the extension of stored flows
(`isPlain_fileName`, `hasExtension_fileName`), and different names make different ones
(`fileName_inj`). So the path of a flow leads to one place in the directory of the store, and
`Store.pathFor` answers for exactly the names that a flow may have. A file is loaded as what it is
read as (`Registration.load_eq_ok_iff`).
-/

namespace Flowline

open Text

namespace FlowName

theorem toList_fileName (name : String) : (fileName name).toList = name.toList ++ ".json".toList :=
  String.toList_append

theorem fileName_inj {name name' : String} : fileName name = fileName name' ↔ name = name' := by
  refine ⟨fun h => ?_, congrArg fileName⟩
  have hlist := congrArg String.toList h
  rw [toList_fileName, toList_fileName, List.append_cancel_right_eq] at hlist
  exact String.toList_injective hlist

section Valid

variable {name : String} (h : IsValid name)

include h

theorem toList_ne_nil : name.toList ≠ [] := by
  intro hnil
  have hblank := h.1
  rw [hnil] at hblank
  cases hblank

theorem isPlain_fileName : Files.IsPlain (fileName name) := by
  have hsafe := h.2
  simp only [isUnsafe, Bool.or_eq_false_iff, List.any_eq_false, beq_iff_eq, Bool.or_eq_true,
    not_or] at hsafe
  obtain ⟨⟨hstroke, -⟩, hcontrol⟩ := hsafe
  have hlength : 5 < (fileName name).toList.length := by
    have := List.length_pos_iff.2 (toList_ne_nil h)
    rw [toList_fileName, List.length_append]
    simp
    omega
  refine ⟨?_, ?_, ?_, ?_, ?_⟩
  · rw [toList_fileName, List.mem_append, not_or]
    exact ⟨fun hmem => (hstroke '/' hmem).1 rfl, by decide⟩
  · rw [toList_fileName, List.mem_append, not_or]
    exact ⟨fun hmem => hcontrol '\x00' hmem rfl, by decide⟩
  all_goals
    intro heq
    rw [heq] at hlength
    exact absurd hlength (by decide)

theorem hasExtension_fileName : Path.hasExtension Store.extension (fileName name) = true := by
  have hcut : cutAt '.' (fileName name).toList.reverse =
      some ("nosj".toList, name.toList.reverse) := by
    rw [cutAt_eq_some_iff, toList_fileName, List.reverse_append]
    exact ⟨rfl, by decide⟩
  have hstem : name.toList.reverse ≠ [] := by simpa using toList_ne_nil h
  simp only [Path.hasExtension, Path.cutExtension, hcut, hstem, if_false]
  rfl

end Valid

end FlowName

namespace Registration

/-- What is loaded from a path is what the file there reads as. -/
theorem load_eq_ok_iff {fs : Files} {path : String} {r : Registration} :
    load fs path = .ok r ↔ ∃ content, fs.lookUp path = .ok (.file content) ∧
      ofGlyphs content = .ok r := by
  unfold load Files.read Files.pathExists
  cases fs.lookUp path with
  | error fault => simp [Except.isOk, Except.toBool]
  | ok e =>
    cases e with
    | file content => simp [Except.isOk, Except.toBool, bind, Except.bind, pure, Except.pure]
    | directory =>
      simp [Except.isOk, Except.toBool, bind, Except.bind, throw, throwThe, MonadExceptOf.throw]

end Registration

namespace Store

theorem pathFor_of_valid (s : Store) {name : String} (h : FlowName.IsValid name) :
    s.pathFor name = .ok (Path.join s.dir (FlowName.fileName name)) := by
  rw [pathFor, FlowName.check_eq_ok_iff.2 h]
  rfl

/-- What is answered for a name that no flow may have. -/
theorem pathFor_of_not_valid (s : Store) {name : String} (h : ¬ FlowName.IsValid name) :
    ∃ e, (e = .blankFlowName ∨ e = .unsafeFlowName name) ∧ FlowName.check name = .error e ∧
      s.pathFor name = .error e := by
  have hcheck : ∃ e, (e = .blankFlowName ∨ e = .unsafeFlowName name) ∧
      FlowName.check name = .error e := by
    unfold FlowName.check
    split
    · exact ⟨_, .inl rfl, rfl⟩
    · split
      · exact ⟨_, .inr rfl, rfl⟩
      · next hblank hunsafe =>
        exact absurd ⟨Bool.eq_false_iff.2 hblank, Bool.eq_false_iff.2 hunsafe⟩ h
  obtain ⟨e, he, hcheck⟩ := hcheck
  exact ⟨e, he, hcheck, by rw [pathFor, hcheck]; rfl⟩

end Store

end Flowline
