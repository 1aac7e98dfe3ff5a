import RoleKey.Command
import RoleKey.Proofs.RecordRoundTrip

/-!
What a reader learns from the text of an inspection.

An inspection is printed as a line or as JSON. `Report.ofLine` and `Report.ofJson` read the kind,
the role, the verdict and the error back, each from its own text and without regard to the other.
Both give the report of the inspection (`Inspection.ofLine_line`, `Inspection.ofJson_pretty`), so
that a value has one report whichever way it is printed (`reports_iff`).
-/

set_option autoImplicit false
set_option relaxedAutoImplicit false

namespace RoleKey

/-! ### Reports -/

/-- The kind with this name. -/
def KeyKind.ofName? (s : String) : Option KeyKind :=
  [seed, privateKey, publicKey, unknown].find? fun kind ↦ kind.name == s

/-- What an inspection tells its reader. -/
structure Report where
  kind : KeyKind
  role : Option Role
  valid : Bool
  error : Option String
deriving DecidableEq

namespace Report

/-- The report of a text that is what it claims to be. -/
def accepted (kind : KeyKind) (role : Option Role) : Report := ⟨kind, role, true, none⟩

/-! ### Reading the line -/

/-- The value behind a label, up to the next blank, and what follows it. -/
def labelled? (label : String) (s : List Char) : Option (String × List Char) :=
  if label.toList <+: s then
    let behind := s.drop label.toList.length
    some (String.ofList (behind.takeWhile (· != ' ')), behind.dropWhile (· != ' '))
  else none

/-- The error at the end of a line, if there is one: it is quoted, and its text is taken as it
stands. -/
def error? (s : List Char) : Option (Option String) :=
  let label := " error=\"".toList
  if s = [] then some none
  else if label <+: s ∧ s.getLast? = some '"' then
    some (some (String.ofList (s.drop label.length).dropLast))
  else none

/-- The role of a name. A dash stands for no role. -/
def role? (name : String) : Option (Option Role) :=
  if name = "-" then some none else (Role.ofName? name).map some

/-- The truth value of a word. -/
def bool? (word : String) : Option Bool :=
  if word = "true" then some true else if word = "false" then some false else none

/-- The report of a line. -/
def ofLine (line : String) : Option Report := do
  let (kind, rest) ← labelled? "kind=" line.toList
  let (role, rest) ← labelled? " role=" rest
  let (valid, rest) ← labelled? " valid=" rest
  return ⟨← KeyKind.ofName? kind, ← role? role, ← bool? valid, ← error? rest⟩

/-! ### Reading the JSON -/

/-- The kind that a record tells. -/
def kindIn? (record : Text.Record) : Option KeyKind :=
  match record.lookup "kind" with
  | some (.text name) => KeyKind.ofName? name
  | _ => none

/-- The role that a record tells. It may say that there is none. -/
def roleIn? (record : Text.Record) : Option (Option Role) :=
  match record.lookup "role" with
  | some .null => some none
  | some (.text name) => (Role.ofName? name).map some
  | _ => none

/-- The truth value that a record tells. -/
def validIn? (record : Text.Record) : Option Bool :=
  match record.lookup "valid" with
  | some (.bool b) => some b
  | _ => none

/-- The error that a record tells. There is one exactly if the record has a member for it. -/
def errorIn? (record : Text.Record) : Option (Option String) :=
  match record.lookup "error" with
  | none => some none
  | some (.text message) => some (some message)
  | some _ => none

/-- The report of a record. -/
def ofRecord (record : Text.Record) : Option Report := do
  return ⟨← kindIn? record, ← roleIn? record, ← validIn? record, ← errorIn? record⟩

/-- The report of a JSON text. -/
def ofJson (text : String) : Option Report := (Text.Record.read? text).bind ofRecord

end Report

/-- What an inspection reports. -/
def Inspection.report (i : Inspection) : Report :=
  ⟨i.kind, i.role, i.valid, i.fault.map InspectionFault.message⟩

/-- Both texts that are printed of a value give this report: the line, and the JSON. -/
def Reports (value : String) (report : Report) : Prop :=
  (∃ line, (Command.inspect value false).result = .ok line ∧ Report.ofLine line = some report) ∧
  ∃ json, (Command.inspect value true).result = .ok json ∧ Report.ofJson json = some report

/-! ### What the line says -/

namespace Report

theorem labelled?_append (label : String) {value : String} (hvalue : ' ' ∉ value.toList)
    (rest : List Char) (hrest : rest = [] ∨ ∃ behind, rest = ' ' :: behind) :
    labelled? label (label.toList ++ (value.toList ++ rest)) = some (value, rest) := by
  have hblank : ∀ c ∈ value.toList, (c != ' ') = true := by
    intro c hc
    rw [bne_iff_ne]
    exact fun h ↦ hvalue (h ▸ hc)
  have htake : rest.takeWhile (· != ' ') = [] := by
    rcases hrest with rfl | ⟨behind, rfl⟩ <;> rfl
  have hdrop : rest.dropWhile (· != ' ') = rest := by
    rcases hrest with rfl | ⟨behind, rfl⟩ <;> rfl
  rw [labelled?, if_pos (List.prefix_append _ _), List.drop_left]
  simp only [List.takeWhile_append_of_pos hblank, List.dropWhile_append_of_pos hblank, htake, hdrop,
    List.append_nil, String.ofList_toList]

theorem error?_append (message : String) :
    error? (" error=\"".toList ++ (message.toList ++ ['"'])) = some (some message) := by
  have hlast : (" error=\"".toList ++ (message.toList ++ ['"'])).getLast? = some '"' := by
    rw [← List.append_assoc, List.getLast?_concat]
  rw [error?, if_neg (by simp), if_pos ⟨List.prefix_append _ _, hlast⟩, List.drop_left,
    List.dropLast_concat, String.ofList_toList]

end Report

theorem KeyKind.ofName?_name (kind : KeyKind) : ofName? kind.name = some kind := by
  cases kind <;> decide

namespace Inspection

/-- The name of a role in a line. -/
def roleName (role : Option Role) : String := (role.map Role.name).getD "-"

theorem role?_roleName (role : Option Role) : Report.role? (roleName role) = some role := by
  rcases role with _ | role
  · rfl
  · cases role <;> rfl

theorem bool?_json (b : Bool) : Report.bool? (Text.Scalar.bool b).json = some b := by
  cases b <;> rfl

/-- The end of a line, which has the error. -/
def errorPart (fault : Option InspectionFault) : String :=
  match fault with
  | some fault => " error=\"" ++ fault.message ++ "\""
  | none => ""

theorem line_eq (i : Inspection) :
    i.line = "kind=" ++ i.kind.name ++ " role=" ++ roleName i.role ++ " valid=" ++
      (Text.Scalar.bool i.valid).json ++ errorPart i.fault := by
  unfold line errorPart
  cases i.fault with
  | none =>
    rw [String.append_empty]
    rfl
  | some fault =>
    simp only [String.append_assoc]
    rfl

theorem error?_errorPart (fault : Option InspectionFault) :
    Report.error? (errorPart fault).toList = some (fault.map InspectionFault.message) := by
  cases fault with
  | none => rfl
  | some fault =>
    have hquote : "\"".toList = ['"'] := rfl
    rw [errorPart, String.toList_append, String.toList_append, List.append_assoc, hquote,
      Report.error?_append, Option.map_some]

theorem errorPart_head (fault : Option InspectionFault) :
    (errorPart fault).toList = [] ∨ ∃ behind, (errorPart fault).toList = ' ' :: behind := by
  cases fault with
  | none => exact Or.inl rfl
  | some fault =>
    have hblank : " error=\"".toList = ' ' :: "error=\"".toList := rfl
    rw [errorPart, String.toList_append, String.toList_append, hblank]
    exact Or.inr ⟨_, rfl⟩

/-- The line of an inspection gives its report. -/
theorem ofLine_line (i : Inspection) : Report.ofLine i.line = some i.report := by
  have hkind : ' ' ∉ i.kind.name.toList := by
    cases i.kind <;> decide
  have hrole : ' ' ∉ (roleName i.role).toList := by
    rcases i.role with _ | role
    · decide
    · cases role <;> decide
  have hvalid : ' ' ∉ (Text.Scalar.bool i.valid).json.toList := by
    cases i.valid <;> decide
  have hreadKind : Report.labelled? "kind=" i.line.toList = some (i.kind.name,
      " role=".toList ++ ((roleName i.role).toList ++ (" valid=".toList ++
        ((Text.Scalar.bool i.valid).json.toList ++ (errorPart i.fault).toList)))) := by
    rw [line_eq]
    simp only [String.toList_append, List.append_assoc]
    exact Report.labelled?_append "kind=" hkind _ (Or.inr ⟨_, rfl⟩)
  have hreadRole := Report.labelled?_append " role=" hrole (" valid=".toList ++
    ((Text.Scalar.bool i.valid).json.toList ++ (errorPart i.fault).toList)) (Or.inr ⟨_, rfl⟩)
  have hreadValid := Report.labelled?_append " valid=" hvalid _ (errorPart_head i.fault)
  simp only [Report.ofLine, hreadKind, hreadRole, hreadValid, error?_errorPart,
    KeyKind.ofName?_name, role?_roleName, bool?_json, Option.bind_eq_bind, Option.bind_some]
  rfl

/-! ### What the JSON says -/

/-- The record of an inspection gives its report. -/
theorem ofRecord_record (i : Inspection) : Report.ofRecord i.record = some i.report := by
  obtain ⟨kind, role, fault⟩ := i
  have hkind : Report.kindIn? (record ⟨kind, role, fault⟩) = some kind := KeyKind.ofName?_name kind
  have hrole : Report.roleIn? (record ⟨kind, role, fault⟩) = some role := by
    rcases role with _ | role
    · rfl
    · exact congrArg (Option.map some) (Role.ofName?_name role)
  have hvalid : Report.validIn? (record ⟨kind, role, fault⟩) = some (valid ⟨kind, role, fault⟩) :=
    rfl
  have herror : Report.errorIn? (record ⟨kind, role, fault⟩) =
      some (fault.map InspectionFault.message) := by
    cases fault <;> rfl
  rw [Report.ofRecord, hkind, hrole, hvalid, herror]
  rfl

/-- The JSON of an inspection gives its report. -/
theorem ofJson_pretty (i : Inspection) : Report.ofJson i.record.pretty = some i.report := by
  rw [Report.ofJson, Text.read?_pretty, Option.bind_some, ofRecord_record]

end Inspection

theorem inspect_line (value : String) :
    (Command.inspect value false).result = .ok (Inspection.ofText value).line := by
  simp [Command.inspect, Inspection.print]

theorem inspect_json (value : String) :
    (Command.inspect value true).result = .ok (Inspection.ofText value).record.pretty := by
  simp [Command.inspect, Inspection.print]

/-- A value gets one report. -/
theorem reports_iff {value : String} {report : Report} :
    Reports value report ↔ (Inspection.ofText value).report = report := by
  constructor
  · rintro ⟨⟨line, hline, hreport⟩, -⟩
    rw [inspect_line] at hline
    obtain rfl := Except.ok.inj hline
    rw [Inspection.ofLine_line] at hreport
    exact Option.some.inj hreport
  · rintro rfl
    have hline := Inspection.ofLine_line (Inspection.ofText value)
    have hjson := Inspection.ofJson_pretty (Inspection.ofText value)
    exact ⟨⟨_, inspect_line value, hline⟩, _, inspect_json value, hjson⟩

end RoleKey
