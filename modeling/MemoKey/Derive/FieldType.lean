import MemoKey.Derive.Grammar

/-!
# Types of fields

The rules for deriving look at the type of a field in one respect: whether it is a path whose last
segment is a given word. Generic arguments belong to their segment and are not looked into. For
the rest a type is kept in writing, in the normal form of the grammar and without spaces. A type
that is written with names, brackets and commas alone is its own normal form.

* `FieldType` is a type in writing together with its last path segment.
* `FieldType.ofPath` and `FieldType.ofText` read types.
-/

namespace MemoKey.Derive

/-- The type of a field. -/
structure FieldType where
  /-- The type in writing. -/
  text : String
  /-- The last segment of the path, if the type is one. -/
  lastSegment? : Option String
  /-- Whether the type could be read. A literal that has no place in the grammar prevents it, and
  so does a part that has no meaning. -/
  isReadable : Bool := true
  deriving DecidableEq, Inhabited

namespace FieldType

/-- The last segment of a path. A type in parentheses, a bound and a sum of bounds are no paths. -/
def segmentOf? : TypeForm → Option String
  | .path path => path.last?
  | _ => none

/-- A text without spaces, also those in literals. Other blanks stay there. -/
def withoutSpaces (text : String) : String :=
  String.ofList (text.toList.filter (· != ' '))

/-- A text that is no type by itself, as it is written. A field without a name may have one. -/
def written (text : String) : String :=
  ((Tree.ofText? text).map Tree.textOfList).getD text

/-- Whether all literals in a text have a place in the grammar. -/
def hasKnownLiterals (text : String) : Bool :=
  (Lexeme.scan text.toList).all fun
    | .token (.literal l) => Tree.isKnownLiteral l
    | _ => true

/-- A type in writing. -/
def ofText (text : String) : FieldType :=
  match Grammar.typeOf text with
  | .ok type => ⟨withoutSpaces type.text, segmentOf? type.form, true⟩
  | .error misfit =>
    ⟨withoutSpaces (written text), none, misfit = .mismatch && hasKnownLiterals text⟩

/-- A path of segments; generic arguments follow the last one. -/
def ofPath (segments : List String) (arguments : String) : FieldType :=
  ofText ("::".intercalate segments ++ arguments)

end FieldType

end MemoKey.Derive
