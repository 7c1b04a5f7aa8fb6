import MemoKey.Proofs.Deriving
import MemoKey.Proofs.ReadingTypes

/-!
# Structs in writing

Deriving gets the types of fields and their attributes in writing.  `WrittenField` is a field of
which both are given by what they are written from, and `StructExpansion.ofItem_written` says what
deriving comes to for a struct of such fields.

* `Attribute.optionsText` is how options are written.  They are read back by
  `Attribute.ofText_optionsText`.
* `WrittenField.Derivable` says which fields can be derived for.
-/

namespace MemoKey.Derive

open Derive.Tree

/-! ## Attributes -/

namespace Attribute

open Lexeme Rule

/-- How the attribute of the deriving rule is written with given options. -/
def optionsText (words : List PlainName) : String :=
  "reflect(" ++ ",".intercalate (words.map (·.text)) ++ ")"

/-- A word is written as the type of its name is. -/
def wordType (w : PlainName) : PlainType :=
  .path w [] []

/-- The trees of words with commas between them. -/
def wordTrees (words : List PlainName) : List Tree :=
  PlainType.treesOf false (words.map wordType)

/-- The trees of an attribute with options. -/
def optionsTrees (words : List PlainName) : List Tree :=
  [leaf (.word "reflect"), group .parentheses (wordTrees words)]

lemma textOfList_wordTrees (words : List PlainName) :
    textOfList (wordTrees words) = ",".intercalate (words.map (·.text)) := by
  have htext (w : PlainName) : (wordType w).text = w.text := by
    simp [wordType, PlainType.text, PlainType.textsOf, PlainType.angled]
  rw [wordTrees, PlainType.textOfList_treesOf, PlainType.textsOf_eq_map, List.map_map]
  exact congrArg _ (List.map_congr_left fun w _ => htext w)

lemma length_le_length_wordTrees (words : List PlainName) :
    words.length ≤ (wordTrees words).length := by
  have h := PlainType.length_le_length_treesOf (words.map wordType) false
  rwa [List.length_map] at h

/-- The text of an attribute is scanned and paired to the trees of the attribute. -/
lemma ofText?_optionsText (words : List PlainName) :
    Tree.ofText? (optionsText words) = some (optionsTrees words) := by
  have htext : textOfList (optionsTrees words) = optionsText words := by
    have hbrackets : textOfList [group .parentheses (wordTrees words)] =
        "(" ++ ",".intercalate (words.map (·.text)) ++ ")" := by
      rw [textOfList, Tree.text, textOfList_wordTrees, textOfList, String.append_empty]
      rfl
    change "reflect" ++ textOfList [group .parentheses (wordTrees words)] = _
    rw [hbrackets, optionsText, ← String.append_assoc, ← String.append_assoc]
    rfl
  have hlegible : IsLegible (lexemesOf (optionsTrees words)) := by
    have hclosing : IsLegible [closing .parentheses] := (isLegible_closing .parentheses).mpr trivial
    have hwords : IsLegible (lexemesOf (wordTrees words) ++ [closing .parentheses]) :=
      PlainType.isLegible_treesOf (words.map wordType) false hclosing rfl rfl
    have hname : (token (.word "reflect")).IsPlain := by
      rw [show "reflect" = String.ofList ['r', 'e', 'f', 'l', 'e', 'c', 't'] from rfl]
      exact .word (by decide) (List.all_eq_true.mp (by decide))
    have hall := (isLegible_word hname).mpr ⟨rfl, (isLegible_opening .parentheses).mpr hwords⟩
    simpa [optionsTrees, lexemesOf, Tree.lexemes] using hall
  rw [← htext, ofText?_textOfList hlegible]

/-- A word is an option by itself, wherever a comma or the end of the list follows. -/
lemma reads_item (w : PlainName) {rest : List Tree} (hends : EndsType rest) (bound : Nat) :
    Reads (item (bound + 1)) (leaf (.word w.text) :: rest) (.word w.text) rest := by
  have hcolons : isSign "::" rest = false := hends.isSign_eq_false rfl (by decide)
  have hequals : isSign "=" rest = false := hends.isSign_eq_false rfl (by decide)
  have habsolute : isSign "::" (leaf (.word w.text) :: rest) = false := rfl
  have hunknown : Reads refuseUnknown (leaf (.word w.text) :: rest) ()
      (leaf (.word w.text) :: rest) := rfl
  have hwords : Reads (words (rest.length + 1)) (leaf (.word w.text) :: rest) [w.text] rest := by
    refine reads_get (Reads.bind (a := ()) rfl ?_)
    rw [if_neg (by simp [hcolons])]
    exact reads_pure [w.text] rest
  rw [item]
  refine hunknown.bind (reads_get ?_)
  simp only [w.isLiteral_eq_false, habsolute, Bool.false_and, Bool.false_or, Bool.false_eq_true,
    if_false]
  have hword : isAnyWord (leaf (.word w.text) :: rest) = true := rfl
  rw [if_pos hword]
  refine hwords.bind (reads_get ?_)
  cases hends with
  | nothing => exact reads_pure (OptionItem.word w.text) []
  | sign hc isJoined more =>
    simp only [hequals, Bool.false_eq_true, if_false]
    exact reads_pure (OptionItem.word w.text) _

lemma reads_items (words : List PlainName) (depth : Nat) {bound : Nat}
    (hbound : words.length ≤ bound) :
    Reads (items (item (depth + 1)) bound) (wordTrees words) (words.map fun w => .word w.text)
      [] := by
  induction words generalizing bound with
  | nil =>
    cases bound with
    | zero => exact reads_pure [] []
    | succ bound => exact reads_get (reads_pure [] [])
  | cons w ws ih =>
    obtain ⟨bound, rfl⟩ := Nat.exists_eq_add_of_le' ((Nat.succ_pos _).trans_le hbound)
    rw [items]
    cases ws with
    | nil =>
      refine reads_get ((reads_item w .nothing depth).bind (reads_get ?_))
      exact reads_pure [OptionItem.word w.text] []
    | cons v vs =>
      have hmore := ih (Nat.le_of_succ_le_succ hbound)
      have hcomma : isSign "," (leaf (.sign ',' false) :: wordTrees (v :: vs)) = true := rfl
      refine reads_get ((reads_item w (.sign (by decide) false (wordTrees (v :: vs))) depth).bind
        (reads_get ?_))
      simp only [List.isEmpty_cons, hcomma, Bool.false_eq_true, if_false, if_true]
      refine Reads.bind (a := ()) rfl (hmore.bind ?_)
      exact reads_pure (OptionItem.word w.text :: (v :: vs).map fun w => .word w.text) []

/-- Options that are words are read back from the way they are written. -/
theorem ofText_optionsText (words : List PlainName) :
    ofText (optionsText words) = .options (words.map fun w => .word w.text) := by
  obtain ⟨depth, hdepth⟩ : ∃ k, (optionsText words).length = k + 1 := by
    refine Nat.exists_eq_succ_of_ne_zero ?_
    simp [optionsText]
  have hitems : itemsOf (item (depth + 1)) (wordTrees words) =
      .ok (words.map fun w => .word w.text) := by
    have h : (items (item (depth + 1)) (wordTrees words).length).run (wordTrees words) =
        .ok (words.map fun w => .word w.text, []) :=
      reads_items words depth (length_le_length_wordTrees words)
    rw [itemsOf, StateT.run'_eq, h]
    rfl
  have hlift : Reads (liftM (itemsOf (item (depth + 1)) (wordTrees words)) : Reader _)
      [group .parentheses (wordTrees words)] (words.map fun w => .word w.text)
      [group .parentheses (wordTrees words)] := by
    rw [hitems]
    rfl
  have hform : (form (depth + 1)).run [group .parentheses (wordTrees words)] =
      .ok (.options (words.map fun w => .word w.text), []) :=
    reads_get (hlift.bind (Reads.bind (a := ()) rfl (reads_pure _ [])))
  have hcolons : isSign "::" [group .parentheses (wordTrees words)] = false := rfl
  rw [ofText, ofText?_optionsText]
  simp only [optionsTrees, hcolons, Bool.false_eq_true, if_false, ofForm, hdepth, hform]

lemma isKnown_optionsText_iff (words : List PlainName) :
    (ofText (optionsText words) = .foreign ∨ ∃ items, ofText (optionsText words) = .options items ∧
        ∀ option ∈ items, option = .word "skip" ∨ option = .word "parent") ↔
      ∀ n ∈ words, n.text = "skip" ∨ n.text = "parent" := by
  simp [ofText_optionsText]

end Attribute

/-! ## Fields -/

/-- A field that is given by what its type and its attributes are written from. -/
structure WrittenField where
  /-- The name. A field of a tuple has none. -/
  name? : Option String
  /-- The type. -/
  type : PlainType
  /-- The options in each attribute of the deriving rule. -/
  attributes : List (List PlainName)

namespace WrittenField

/-- The field as it is read. -/
def read (w : WrittenField) : Field where
  name? := w.name?
  type := FieldType.ofText w.type.text
  attributes := w.attributes.map fun words => Attribute.ofText (Attribute.optionsText words)

/-- Whether an option is written at a field. -/
def carries (w : WrittenField) (option : String) : Bool :=
  w.attributes.any fun words => words.any (·.text == option)

lemma type_read (w : WrittenField) :
    w.read.type = ⟨w.type.text, w.type.lastName?, true⟩ :=
  FieldType.ofText_text w.type

lemma carries_read (w : WrittenField) (option : String) :
    w.read.carries option = w.carries option := by
  have hword (n : PlainName) : (OptionItem.word option == .word n.text) = (n.text == option) := by
    rw [Bool.eq_iff_iff, beq_iff_eq, beq_iff_eq, OptionItem.word.injEq, eq_comm]
  simp only [Field.carries, carries, read, List.any_map, Function.comp_def, hword,
    Attribute.ofText_optionsText, Attribute.carries, List.contains_eq_any_beq]

end WrittenField

/-! ## Structs -/

/-- A struct without generic parameters, as it is read from a name and fields in writing. -/
def Item.written (name : String) (ws : List WrittenField) : Item where
  name := name
  isGeneric := false
  body := .struct (ws.map WrittenField.read)

/-- Fields in writing that can be derived for.  Only the two options are written, at no field both,
and that of the parent at one field at most. -/
structure WrittenField.Derivable (ws : List WrittenField) : Prop where
  known : ∀ w ∈ ws, ∀ words ∈ w.attributes, ∀ n ∈ words, n.text = "skip" ∨ n.text = "parent"
  exclusive : ∀ w ∈ ws, ¬ (w.carries "skip" = true ∧ w.carries "parent" = true)
  oneParent : ws.countP (·.carries "parent") ≤ 1

section

variable (name : String) (ws : List WrittenField)

/-- Nothing in a type in writing prevents reading. -/
lemma Item.isReadable_written : (written name ws).isReadable = true := by
  refine List.all_eq_true.mpr fun field hfield => ?_
  obtain ⟨w, -, rfl⟩ := List.mem_map.mp hfield
  rw [w.type_read]

lemma Item.derivable_written_iff : (written name ws).Derivable ↔ WrittenField.Derivable ws := by
  have hcount : (ws.map WrittenField.read).countP (·.carries "parent") =
      ws.countP (·.carries "parent") := by
    rw [List.countP_map]
    exact List.countP_congr fun w _ => by rw [Function.comp_apply, w.carries_read]
  constructor
  · intro h
    refine ⟨fun w hw words hwords n hn => ?_, fun w hw => ?_, hcount ▸ h.oneParent⟩
    · exact (Attribute.isKnown_optionsText_iff words).mp
        (h.attributes w.read (List.mem_map_of_mem hw) _ (List.mem_map_of_mem hwords)) n hn
    · simpa only [w.carries_read] using h.exclusive w.read (List.mem_map_of_mem hw)
  · intro h
    refine ⟨rfl, ⟨_, rfl⟩, fun field hfield a ha => ?_, fun field hfield => ?_, ?_⟩
    · obtain ⟨w, hw, rfl⟩ := List.mem_map.mp hfield
      obtain ⟨words, hwords, rfl⟩ := List.mem_map.mp ha
      exact (Attribute.isKnown_optionsText_iff words).mpr (h.known w hw words hwords)
    · obtain ⟨w, hw, rfl⟩ := List.mem_map.mp hfield
      simpa only [w.carries_read] using h.exclusive w hw
    · exact hcount.trans_le h.oneParent

namespace StructExpansion

/-- **Deriving from writing.**  A struct is derived for if its name is not raw and its fields allow
it.  Then every field but the parent is listed, and it is synthetic if it is skipped or if its type
is a path that ends in the name of phantom markers.  What is inherited comes from the type that is
written at the parent. -/
theorem ofItem_written :
    ((∃ e, ofItem (.written name ws) = .ok e) ↔
      isRaw name = false ∧ WrittenField.Derivable ws) ∧
    ∀ e, ofItem (.written name ws) = .ok e →
      e.fields = ((ws.zipIdx.filter fun w => !w.1.carries "parent").map fun w =>
        (w.1.read.label w.2,
          w.1.carries "skip" || w.1.type.lastName? == some "PhantomData")) ∧
      e.parent? = (ws.zipIdx.find? fun w => w.1.carries "parent").map fun w =>
        ⟨w.1.read.label w.2, ⟨w.1.type.text, w.1.type.lastName?, true⟩, .parent⟩ := by
  have hreadable := Item.isReadable_written name ws
  have hok (e : StructExpansion) : ofItem (.written name ws) = .ok e ↔
      (isRaw name = false ∧ WrittenField.Derivable ws) ∧ ofMembers (.written name ws) = e := by
    rw [ofItem_eq_ok_iff hreadable, Item.derivable_written_iff, and_comm (b := isRaw _ = false)]
    rfl
  refine ⟨⟨?_, fun h => ⟨_, (hok _).mpr ⟨h, rfl⟩⟩⟩, fun e he => ?_⟩
  · rintro ⟨e, he⟩
    exact ((hok e).mp he).1
  obtain ⟨-, rfl⟩ := (hok e).mp he
  have hdescribes := ofMembers_describes (.written name ws)
  have hfields : (Item.written name ws).fields.zipIdx =
      ws.zipIdx.map (Prod.map WrittenField.read id) := List.zipIdx_map ..
  rw [hdescribes.fields, hdescribes.parent?, hfields, List.filter_map, List.find?_map,
    List.map_map, Option.map_map]
  simp only [Function.comp_def, Prod.map_fst, Prod.map_snd, id_eq, WrittenField.carries_read,
    WrittenField.type_read, and_self]

end StructExpansion

end

end MemoKey.Derive
