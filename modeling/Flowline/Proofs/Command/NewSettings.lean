import Flowline.Command.Init
import Flowline.Proofs.Text.Blank
import Flowline.Proofs.Yaml.Lines

/-!
# The settings of a new deployment

The name of a new deployment stands in its settings as it is. `read_newSettings` reads them back if
the name is plain text on one line; all other settings are the usual ones.
-/

namespace Flowline

open Yaml

/-! ## Reading plain words -/

namespace Yaml

/-- A plain scalar without a tag. -/
def word (s : List Char) : Node := .scalar none .plain s

end Yaml

namespace Settings

variable (d : Document) (s : List Char)

@[simp]
theorem text?_word : text? d (word s) = some (String.ofList s) := rfl

@[simp]
theorem natural?_word (high : Nat) : natural? high d (word s) = number? high s := rfl

@[simp]
theorem sourceKind?_word : sourceKind? d (word s) = SourceKind.ofName? (String.ofList s) := rfl

@[simp]
theorem named?_mapping (entries : List (Node × Node)) : named? d (.mapping none entries) =
    entries.mapM fun (key, value) => do return (← text? d key, value) := rfl

end Settings

namespace Command

/-! ## The text -/

/-- The lines of the settings of a new deployment. -/
def newLines (name : String) : List Line :=
  [.note 0 " Flowtrack settings",
    .entry 0 "name" (some name),
    .empty,
    .note 0 " Directory of flow registration payloads (<flow>.json)",
    .entry 0 "config_dir" (some "configs"),
    .empty,
    .note 0 " Status source: mock | database",
    .entry 0 "source" (some "mock"),
    .empty,
    .entry 0 "mock" none,
    .entry 2 "interval_secs" (some "5"),
    .empty,
    .entry 0 "database" none,
    .note 2 " url: postgres://flowtrack@localhost:5432/airflow",
    .entry 2 "dag_run_table" (some "dag_run"),
    .entry 2 "stage_status_table" (some "stage_status"),
    .empty,
    .note 0 " Seconds between refreshes for flows without refreshInterval",
    .entry 0 "default_refresh_interval" (some "120")]

theorem toList_newSettings (name : String) :
    (newSettings name).toList = Line.text (newLines name) := by
  rw [newSettings, Text.toList_unlines]
  simp [Line.text, Line.body, Line.valueChars, newLines]

/-- The lines fit if the name does. -/
theorem fitAll_newLines {name : String} (h : isPlainLine name.toList = true) :
    Line.FitAll (newLines name) := by
  have hname : (Line.entry 0 "name" (some name)).Fits (Line.text ((newLines "").drop 2)) := by
    refine ⟨by decide, ?_⟩
    rintro v ⟨⟩
    exact ⟨h, 0, rfl, Nat.le_refl 0⟩
  have hnote : (Line.note 0 " Flowtrack settings").Fits [] := by decide +kernel
  have hrest : Line.FitAll ((newLines "").drop 2) := by decide +kernel
  exact ⟨hnote, hname, hrest⟩

/-! ## The tokens and the node -/

/-- The tokens of the settings, with those of the name. -/
def newTokens (name : List Token) : List Token :=
  .blockMappingStart :: .key :: .scalar .plain "name".toList :: .value :: (name ++
  [.key, .scalar .plain "config_dir".toList, .value, .scalar .plain "configs".toList,
    .key, .scalar .plain "source".toList, .value, .scalar .plain "mock".toList,
    .key, .scalar .plain "mock".toList, .value,
    .blockMappingStart, .key, .scalar .plain "interval_secs".toList, .value,
    .scalar .plain "5".toList, .blockEnd,
    .key, .scalar .plain "database".toList, .value,
    .blockMappingStart, .key, .scalar .plain "dag_run_table".toList, .value,
    .scalar .plain "dag_run".toList,
    .key, .scalar .plain "stage_status_table".toList, .value, .scalar .plain "stage_status".toList,
    .blockEnd,
    .key, .scalar .plain "default_refresh_interval".toList, .value, .scalar .plain "120".toList,
    .blockEnd])

/-- The node of the settings. -/
def newNode (name : List Char) : Node :=
  .mapping none [(word "name".toList, word name),
    (word "config_dir".toList, word "configs".toList),
    (word "source".toList, word "mock".toList),
    (word "mock".toList, .mapping none [(word "interval_secs".toList, word "5".toList)]),
    (word "database".toList, .mapping none [(word "dag_run_table".toList, word "dag_run".toList),
      (word "stage_status_table".toList, word "stage_status".toList)]),
    (word "default_refresh_interval".toList, word "120".toList)]

theorem weave_newLines (name : String) :
    Scanner.weave (Line.readAll (newLines name)).keyPlaces 0
        (Line.readAll (newLines name)).tokens.reverse =
      newTokens (if name = "" then [] else [.scalar .plain name.toList]) := by
  by_cases h : name = ""
  · simp [Line.readAll, newLines, Line.read, Scanner.start, Scanner.readKey_sibling,
      Scanner.readKey_nested, Scanner.readKey_outer, Scanner.emit, h, Scanner.unroll,
      Scanner.closeBlocks, Scanner.inFlow, Scanner.weave, newTokens]
  · simp [Line.readAll, newLines, Line.read, Scanner.start, Scanner.readKey_sibling,
      Scanner.readKey_nested, Scanner.readKey_outer, Scanner.emit, h, Scanner.unroll,
      Scanner.closeBlocks, Scanner.inFlow, Scanner.weave, newTokens]

theorem ofTokens?_newTokens (name : String) :
    Document.ofTokens? (newTokens (if name = "" then [] else [.scalar .plain name.toList])) =
      some ⟨some (newNode name.toList), []⟩ := by
  by_cases h : name = ""
  · rw [if_pos h, h]
    rfl
  · rw [if_neg h]
    rfl

theorem ofNode?_newNode (d : Document) (name : String) :
    Settings.ofNode? d (newNode name.toList) = some { (default : Settings) with name := name } := by
  have hsource : SourceKind.ofName? "mock" = some .mock := by decide
  have hinterval : Settings.number? 0xFFFFFFFFFFFFFFFF ['5'] = some 5 := by decide
  have hrefresh : Settings.number? 0xFFFFFFFFFFFFFFFF ['1', '2', '0'] = some 120 := by decide
  simp [Settings.ofNode?, Settings.mock?, Settings.database?, newNode, Settings.field?, hsource,
    hinterval, hrefresh]
  exact ⟨rfl, rfl, rfl, rfl, rfl⟩

/-- The settings of a new deployment are read back if its name is plain text on one line. -/
theorem read_newSettings {name : String} (h : isPlainLine name.toList = true) :
    Settings.read (newSettings name).toList = .ok { (default : Settings) with name := name } := by
  have hdocument : Document.read? (newSettings name).toList =
      some ⟨some (newNode name.toList), []⟩ := by
    rw [Document.read?, toList_newSettings,
      Token.scan?_lines (fitAll_newLines h), weave_newLines]
    exact ofTokens?_newTokens name
  simp only [Settings.read, hdocument, ofNode?_newNode]

end Command

end Flowline
