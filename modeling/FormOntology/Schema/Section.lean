import FormOntology.Json.Value
import FormOntology.Text.Blank

/-!
# Sections of the form

The form has five sections in a fixed order.

## Main definitions

* `FormSection` — the sections, with their titles.
* `FormSection.parse`, `FormSection.ofTree?` — the section of a name and of a JSON text.
* `PerSection` — a value for each section.
-/

namespace FormOntology

/-- The sections of the form. -/
inductive FormSection where
  /-- Driver details. -/
  | drivers
  /-- Vehicle details. -/
  | vehicles
  /-- Claims history. -/
  | claims
  /-- Application settings. -/
  | settings
  /-- Documents. -/
  | documents
  deriving DecidableEq, Repr, Inhabited

/-- The name, without the blanks around it, of a section that does not exist. -/
structure UnknownSection where
  /-- The name. -/
  name : String
  deriving DecidableEq, Repr, Inhabited

/-- The text of the error. -/
def UnknownSection.message (e : UnknownSection) : String :=
  "unknown section `" ++ e.name
    ++ "` (expected one of drivers, vehicles, claims, settings, documents)"

namespace FormSection

/-- The name of a section. -/
def name : FormSection → String
  | drivers => "drivers"
  | vehicles => "vehicles"
  | claims => "claims"
  | settings => "settings"
  | documents => "documents"

/-- The title of a section. -/
def title : FormSection → String
  | drivers => "Driver Details"
  | vehicles => "Vehicle Details"
  | claims => "Claims History"
  | settings => "Application Settings"
  | documents => "Documents"

/-- The place of a section in the form, counted from one. -/
def order : FormSection → Nat
  | drivers => 1
  | vehicles => 2
  | claims => 3
  | settings => 4
  | documents => 5

/-- The sections, in the order of the form. -/
def all : List FormSection := [drivers, vehicles, claims, settings, documents]

theorem mem_all (s : FormSection) : s ∈ all := by cases s <;> decide

/-- The section with exactly this name. -/
def ofName? (name : String) : Option FormSection := all.find? (·.name == name)

theorem ofName?_name (s : FormSection) : ofName? s.name = some s := by cases s <;> decide

/-- The section of a name, in either case and with blanks around it. -/
def parse (name : String) : Except UnknownSection FormSection :=
  let wanted := Text.strip name
  match ofName? (Text.lower wanted) with
  | some s => .ok s
  | none => .error ⟨wanted⟩

/-- The section of a tree: exactly its name, or an object of its name and `null`. -/
def ofTree? : JsonTree → Option FormSection
  | .string s => (writtenString? s).bind ofName?
  | .object [(s, .null)] => (writtenString? s).bind ofName?
  | _ => none

end FormSection

/-- A value for each section. -/
@[ext] structure PerSection (α : Type) where
  /-- The value for the drivers. -/
  drivers : α
  /-- The value for the vehicles. -/
  vehicles : α
  /-- The value for the claims. -/
  claims : α
  /-- The value for the settings. -/
  settings : α
  /-- The value for the documents. -/
  documents : α
  deriving DecidableEq, Repr, Inhabited

namespace PerSection

/-- The value for a section. -/
def get {α : Type} (p : PerSection α) : FormSection → α
  | .drivers => p.drivers
  | .vehicles => p.vehicles
  | .claims => p.claims
  | .settings => p.settings
  | .documents => p.documents

/-- The values that a function gives. -/
def ofFn {α : Type} (f : FormSection → α) : PerSection α :=
  ⟨f .drivers, f .vehicles, f .claims, f .settings, f .documents⟩

@[simp] theorem get_ofFn {α : Type} (f : FormSection → α) (s : FormSection) :
    (ofFn f).get s = f s := by
  cases s <;> rfl

@[simp] theorem ofFn_get {α : Type} (p : PerSection α) : ofFn p.get = p := rfl

theorem ext_get {α : Type} {p q : PerSection α} (h : ∀ s, p.get s = q.get s) : p = q := by
  rw [← ofFn_get p, ← ofFn_get q, funext h]

/-- The values in the order of the form. -/
def toList {α : Type} (p : PerSection α) : List α := FormSection.all.map p.get

end PerSection

end FormOntology
