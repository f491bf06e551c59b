import LicenseDepot.Journal.Context

/-!
# Values in full

An event may carry any value that an operation is called with. Paths and identifiers are shown by
their texts; references and licences by a line that gives every field, so that two values with the
same line are the same. A licensee is shown in the order of its names.
-/

namespace LicenseDepot

open Text

/-- A value with its fields (`repr`). -/
def showFields (name : String) (fields : List (String × String)) : String :=
  name ++ "(" ++ ", ".intercalate (fields.map fun f => f.1 ++ "=" ++ f.2) ++ ")"

/-- A value that may be missing. -/
def showOption {α : Type} (f : α → String) : Option α → String
  | some a => f a
  | none => "None"

/-- A list of texts; a single one is told apart from a text in brackets by a comma. -/
def showTexts : List String → String
  | [s] => "(" ++ quoted s ++ ",)"
  | texts => "(" ++ ", ".intercalate (texts.map quoted) ++ ")"

/-- A path in full. -/
def Path.inspect (p : Path) : String :=
  s!"PosixPath({quoted p.toText})"

/-- A reference in full; one that is opaque is known by its name alone. -/
def Reference.inspect : Reference → String
  | .file path multi =>
    showFields "FileLicenseStoreReference"
      [("path", path.inspect), ("multi", if multi then "True" else "False")]
  | .opaqueKind name => name

/-- An identifier in full. -/
def LicenseId.inspect (id : LicenseId) : String :=
  showFields "LicenseId" [("value", s!"UUID({quoted id.toText})")]

/-- A licence type in full. -/
def LicenseType.inspect (t : LicenseType) : String :=
  s!"<LicenseType.{t.toText}: {quoted t.toText}>"

/-- A licensee in full. -/
def Licensee.inspect (l : Licensee) : String :=
  "\x7b" ++ ", ".intercalate (l.entries.map fun e => quoted e.1 ++ ": " ++ quoted e.2) ++ "\x7d"

/-- An offset in full. -/
def Offset.inspect (o : Offset) : String :=
  if o.microseconds = 0 then "datetime.timezone.utc"
  else s!"datetime.timezone({showDuration o.microseconds})"

/-- A zone in full. -/
def Zone.inspect : Zone → String
  | .fixed o => o.inspect
  | .ruled z => z.shown

/-- A timestamp in full, without seconds and fractions that are zero. -/
def Timestamp.inspect (t : Timestamp) : String :=
  let fine :=
    if t.clock.microsecond ≠ 0 then [t.clock.second, t.clock.microsecond]
    else if t.clock.second ≠ 0 then [t.clock.second]
    else []
  let fields := [t.date.year, t.date.month, t.date.day, t.clock.hour, t.clock.minute] ++ fine
  let fold := if t.fold then ["fold=1"] else []
  let zone := (t.zone.map fun z => "tzinfo=" ++ z.inspect).toList
  "datetime.datetime(" ++ ", ".intercalate (fields.map toString ++ fold ++ zone) ++ ")"

/-- The fields of some terms, in full. -/
def Terms.fields (t : Terms) : List (String × String) :=
  [("id", t.id.inspect), ("type", t.type.inspect), ("licensee", t.licensee.inspect),
    ("features", showTexts t.features),
    ("expiration_date", showOption Timestamp.inspect t.expiration),
    ("max_user_count", showOption Numeral.Integer.toText t.maxUsers)]

/-- A licence in full. -/
def License.inspect : License → String
  | .plain t => showFields "License" t.fields
  | .signed t bytes _ => showFields "SignedLicense" (t.fields ++ [("encoded", quotedBytes bytes)])

/-- A value as an event carries it: what `json.dumps` cannot write is shown by its text. -/
def Subject.toJson : Subject → Json
  | .reference r => .text r.inspect
  | .license l => .text l.inspect
  | .id i => .text i.toText
  | .path p => .text p.toText
  | .other j => j

end LicenseDepot
