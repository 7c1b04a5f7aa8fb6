import MemoKey.Proofs.Hierarchy

/-!
# Which items can be derived for, and what comes of it

Deriving looks at an item piece by piece, and the first piece that is not as it should be decides.
Everything that is found on the way is put into three tables, which stay in step.

## The first violation

`Attribute.violation?`, `Field.violation?` and `Item.violation?` are the first thing that is wrong
with an attribute, a field and an item.  `Item.Derivable` says what an item has to be, and
`Item.violation?_eq_none_iff` that nothing is wrong with it exactly then.  Deriving takes options
one by one in a fold that may fail, and `fault?_foldlM` says as which step it does.

## Raw names

`StructExpansion.ofItem_eq` is deriving as a whole.  There is one more way for it to fail: the name
of the item becomes part of another name, and a raw name cannot.  So a struct with a raw name is not
derived for, although nothing is wrong with it (`StructExpansion.not_forall_derivable_isOk`), while
raw names of fields do no harm.

`StructExpansion.Describes` says what the three tables hold, and `StructExpansion.derivable_exactly`
puts everything together.
-/

namespace MemoKey.Derive

/-! ## The first violation -/

/-- The options that there are. -/
def OptionItem.isKnown (item : OptionItem) : Bool :=
  item == .word "skip" || item == .word "parent"

/-- What is wrong with an attribute. -/
def Attribute.violation? : Attribute → Option Rejection
  | bare | assigned => some .attributeForm
  | options items => if items.all OptionItem.isKnown then none else some .unknownOption
  | malformed fault => some (.malformedAttribute fault)
  | foreign => none

namespace Field

/-- Whether a field carries an option, in any of its attributes. -/
def carries (field : Field) (word : String) : Bool :=
  field.attributes.any (·.carries word)

/-- What is wrong with a field: an attribute, the first one that is, or two options that exclude
each other. -/
def violation? (field : Field) : Option Rejection :=
  (field.attributes.findSome? Attribute.violation?).or
    (if field.carries "skip" && field.carries "parent" then some .skippedParent else none)

end Field

/-- What is wrong with the fields of a struct, from first to last.  A parent is wrong if there was
one before. -/
def violationFrom? (hasParent : Bool) : List Field → Option Rejection
  | [] => none
  | field :: rest =>
    field.violation?.or <|
      (if field.carries "parent" && hasParent then some .secondParent else none).or <|
        violationFrom? (hasParent || field.carries "parent") rest

namespace Item

/-- The first thing that is wrong with an item. -/
def violation? (item : Item) : Option Rejection :=
  if item.isGeneric then some .genericStruct
  else
    match item.body with
    | .struct fields => violationFrom? false fields
    | _ => some .notStruct

/-- The items that can be derived for: structs without generic parameters.  Every attribute of the
deriving rule is a list of the two options and nothing else, no field carries both of them, and at
most one field is marked as the parent. -/
structure Derivable (item : Item) : Prop where
  notGeneric : item.isGeneric = false
  struct : ∃ fields, item.body = .struct fields
  attributes : ∀ field ∈ item.fields, ∀ a ∈ field.attributes,
    a = .foreign ∨ ∃ items, a = .options items ∧
      ∀ option ∈ items, option = .word "skip" ∨ option = .word "parent"
  exclusive : ∀ field ∈ item.fields, ¬ (field.carries "skip" = true ∧ field.carries "parent" = true)
  oneParent : item.fields.countP (·.carries "parent") ≤ 1

end Item

lemma Attribute.violation?_eq_none_iff {a : Attribute} :
    a.violation? = none ↔
      a = .foreign ∨ ∃ items, a = .options items ∧
        ∀ option ∈ items, option = .word "skip" ∨ option = .word "parent" := by
  cases a with
  | options items => simp [violation?, OptionItem.isKnown, or_iff_not_imp_left]
  | _ => simp [violation?]

lemma Field.violation?_eq_none_iff {field : Field} :
    field.violation? = none ↔
      (∀ a ∈ field.attributes, a.violation? = none) ∧
        ¬ (field.carries "skip" = true ∧ field.carries "parent" = true) := by
  rw [violation?, Option.or_eq_none_iff, List.findSome?_eq_none_iff]
  simp

/-- Nothing is wrong with fields if nothing is wrong with any of them and there are not too many
parents. -/
lemma violationFrom?_eq_none_iff {hasParent : Bool} {fields : List Field} :
    violationFrom? hasParent fields = none ↔
      (∀ field ∈ fields, field.violation? = none) ∧
        fields.countP (·.carries "parent") + hasParent.toNat ≤ 1 := by
  induction fields generalizing hasParent with
  | nil => cases hasParent <;> simp [violationFrom?]
  | cons field rest ih =>
    rw [violationFrom?, Option.or_eq_none_iff, Option.or_eq_none_iff, ih, List.forall_mem_cons,
      List.countP_cons]
    cases field.carries "parent" <;> cases hasParent <;> simp [and_assoc]

/-- Nothing is wrong exactly with the items that can be derived for. -/
theorem Item.violation?_eq_none_iff {item : Item} : item.violation? = none ↔ item.Derivable := by
  obtain ⟨name, isGeneric, body⟩ := item
  cases isGeneric with
  | true => exact iff_of_false nofun fun h => absurd h.notGeneric nofun
  | false =>
    cases body with
    | enum | union => exact iff_of_false nofun fun h => nomatch h.struct
    | struct fields =>
      change violationFrom? false fields = none ↔ _
      rw [violationFrom?_eq_none_iff]
      simp only [Field.violation?_eq_none_iff, Attribute.violation?_eq_none_iff]
      constructor
      · rintro ⟨hfields, hparents⟩
        exact ⟨rfl, ⟨fields, rfl⟩, fun field hfield => (hfields field hfield).1,
          fun field hfield => (hfields field hfield).2, hparents⟩
      · intro h
        exact ⟨fun field hfield => ⟨h.attributes field hfield, h.exclusive field hfield⟩,
          h.oneParent⟩

/-! ## What deriving does -/

/-- The reason why there is no result. -/
def fault? {ε α : Type} : Except ε α → Option ε
  | .error e => some e
  | .ok _ => none

lemma fault?_bind {ε α β : Type} (x : Except ε α) (f : α → Except ε β) :
    fault? (x >>= f) = match x with | .error e => some e | .ok a => fault? (f a) := by
  cases x <;> rfl

/-- A fold fails as the first step that does, if the state does not matter for that. -/
lemma fault?_foldlM {ε σ α : Type} {step : σ → α → Except ε σ} {wrong? : α → Option ε}
    (hstep : ∀ s x, fault? (step s x) = wrong? x) (xs : List α) (s : σ) :
    fault? (xs.foldlM step s) = xs.findSome? wrong? := by
  induction xs generalizing s with
  | nil => rfl
  | cons x rest ih =>
    rw [List.foldlM_cons, fault?_bind, List.findSome?_cons, ← hstep s x]
    cases step s x with
    | error e => rfl
    | ok next => exact ih next

namespace Options

lemma fault?_addItem (o : Options) (item : OptionItem) :
    fault? (addItem o item) = if item.isKnown then none else some .unknownOption := by
  unfold addItem
  split
  · rfl
  · rfl
  · next hskip hparent =>
    have hunknown : item.isKnown = false := by
      simp only [OptionItem.isKnown, Bool.or_eq_false_iff, beq_eq_false_iff_ne]
      exact ⟨hskip, hparent⟩
    rw [hunknown]
    rfl

lemma fault?_addAttribute (o : Options) (a : Attribute) :
    fault? (addAttribute o a) = a.violation? := by
  cases a with
  | options items =>
    rw [addAttribute, fault?_foldlM fault?_addItem, Attribute.violation?]
    induction items with
    | nil => rfl
    | cons item rest ih =>
      rw [List.findSome?_cons, List.all_cons]
      cases item.isKnown with
      | false => rfl
      | true => exact ih
  | _ => rfl

/-- Options are taken from a field if nothing is wrong with it. -/
lemma fault?_ofField (field : Field) : fault? (ofField field) = field.violation? := by
  have hattributes : fault? (field.attributes.foldlM addAttribute {}) =
      field.attributes.findSome? Attribute.violation? :=
    fault?_foldlM fault?_addAttribute field.attributes {}
  rw [ofField, fault?_bind, Field.violation?, ← hattributes]
  cases hfold : field.attributes.foldlM addAttribute {} with
  | error cause => rfl
  | ok o =>
    obtain ⟨hskip, hparent⟩ := foldlM_eq_ok addAttribute_eq_ok hfold
    have hcarries : (o.skip && o.parent) = (field.carries "skip" && field.carries "parent") := by
      rw [hskip, hparent]
      rfl
    simp only [hcarries]
    cases field.carries "skip" && field.carries "parent" <;> rfl

end Options

/-- A field is the parent if it is marked as such. -/
lemma Field.role_eq_parent (field : Field) : (field.role == .parent) = field.carries "parent" := by
  rw [role, carries]
  cases field.attributes.any (·.carries "parent") with
  | true => rfl
  | false =>
    simp only [Bool.false_eq_true, if_false]
    split <;> rfl

/-- A field that is not the parent is synthetic if it is skipped or its type is a path that ends in
the name of phantom markers. -/
lemma Field.role_eq_synthetic {field : Field} (h : field.carries "parent" = false) :
    (field.role == .synthetic) =
      (field.carries "skip" || field.type.lastSegment? == some "PhantomData") := by
  rw [carries] at h
  rw [role, h, if_neg Bool.false_ne_true, carries, FieldType.isPhantom]
  cases field.attributes.any (·.carries "skip") ||
    field.type.lastSegment? == some "PhantomData" <;> rfl

/-- Members are found if nothing is wrong with the fields. -/
lemma fault?_membersFrom (index : Nat) (hasParent : Bool) (fields : List Field) :
    fault? (membersFrom index hasParent fields) = violationFrom? hasParent fields := by
  induction fields generalizing index hasParent with
  | nil => rfl
  | cons field rest ih =>
    rw [membersFrom, fault?_bind, violationFrom?, ← Options.fault?_ofField]
    cases hoptions : Options.ofField field with
    | error cause => rfl
    | ok o =>
      simp only [Options.role_eq hoptions, field.role_eq_parent]
      cases field.carries "parent" && hasParent with
      | true => rfl
      | false =>
        rw [← ih (index + 1), if_neg Bool.false_ne_true, if_neg Bool.false_ne_true, fault?_bind]
        cases membersFrom (index + 1) (hasParent || field.carries "parent") rest <;> rfl

namespace StructExpansion

/-- The expansion for an item with a name that is not raw and with which nothing is wrong. -/
def ofMembers (item : Item) : StructExpansion where
  typeName := item.name
  constantName := "__" ++ Text.uppercase item.name ++ "_TYPE_INFO"
  members := item.members

/-- **What deriving comes to.**  The first violation decides, and after all others the name. -/
theorem ofItem_eq {item : Item} (hreadable : item.isReadable = true) :
    ofItem item =
      match item.violation? with
      | some cause => .error cause.failure
      | none => if isRaw item.name then .error .unnameable else .ok (ofMembers item) := by
  obtain ⟨name, isGeneric, body⟩ := item
  cases isGeneric with
  | true =>
    rw [ofItem, hreadable]
    rfl
  | false =>
    cases body with
    | enum | union => rfl
    | struct fields =>
      have hitem : ofItem ⟨name, false, .struct fields⟩ =
          (Derive.members fields).mapError Rejection.failure >>= fun found =>
            if isRaw name then .error .unnameable
            else .ok ⟨name, "__" ++ Text.uppercase name ++ "_TYPE_INFO", found⟩ := by
        rw [ofItem, hreadable]
        rfl
      have hviolation : Item.violation? ⟨name, false, .struct fields⟩ =
          violationFrom? false fields := rfl
      have hfault : fault? (Derive.members fields) = violationFrom? false fields :=
        fault?_membersFrom 0 false fields
      rw [hitem, hviolation, ← hfault]
      cases hmembers : Derive.members fields with
      | error cause => rfl
      | ok found =>
        have hfound : found = Item.members ⟨name, false, .struct fields⟩ := membersFrom_eq hmembers
        rw [hfound]
        rfl

lemma ofItem_eq_ok_iff {item : Item} (hreadable : item.isReadable = true) {e : StructExpansion} :
    ofItem item = .ok e ↔ (item.Derivable ∧ isRaw item.name = false) ∧ ofMembers item = e := by
  rw [ofItem_eq hreadable, ← Item.violation?_eq_none_iff]
  cases item.violation? with
  | some cause => simp
  | none => cases isRaw item.name <;> simp

/-! ## The three tables -/

/-- What an expansion says about an item.  Every field but the parent is listed, in order of
declaration and by its name or index, and it is synthetic if it is skipped or its type is a path
that ends in the name of phantom markers.  Those that are not can be read, and what is inherited
comes from the parent. -/
structure Describes (e : StructExpansion) (item : Item) : Prop where
  typeName : e.typeName = item.name
  constantName : e.constantName = "__" ++ Text.uppercase item.name ++ "_TYPE_INFO"
  fields : e.fields = (item.fields.zipIdx.filter fun f => !f.1.carries "parent").map fun f =>
    (f.1.label f.2, f.1.carries "skip" || f.1.type.lastSegment? == some "PhantomData")
  reads : e.reads = (e.fields.filter fun f => !f.2).map fun f => (f.1, "self." ++ f.1)
  parent? : e.parent? = (item.fields.zipIdx.find? fun f => f.1.carries "parent").map fun f =>
    ⟨f.1.label f.2, f.1.type, .parent⟩

/-- Reading has the fields that are listed as not synthetic, whatever the members are. -/
lemma reads_eq (e : StructExpansion) :
    e.reads = (e.fields.filter fun f => !f.2).map fun f => (f.1, "self." ++ f.1) := by
  rw [reads, fields, listed, readable, List.filter_map, List.filter_filter, List.map_map]
  simp only [Function.comp_def, Role.eq_plain]
  rfl

lemma ofMembers_describes (item : Item) : (ofMembers item).Describes item where
  typeName := rfl
  constantName := rfl
  fields := by
    rw [StructExpansion.fields, ofMembers, Item.members, listed, List.filter_map, List.map_map]
    simp only [Function.comp_def, bne, Field.role_eq_parent]
    refine List.map_congr_left fun f hf => ?_
    have hmarked : f.1.carries "parent" = false := by simpa using (List.mem_filter.mp hf).2
    exact congrArg (Prod.mk (f.1.label f.2)) (Field.role_eq_synthetic hmarked)
  reads := reads_eq _
  parent? := by
    rw [StructExpansion.parent?, ofMembers, Item.members, List.find?_map]
    simp only [Function.comp_def, Field.role_eq_parent]
    refine Option.map_congr fun f hf => ?_
    have hmarked := List.find?_some hf
    have hparent : f.1.role = .parent := eq_of_beq (f.1.role_eq_parent.trans hmarked)
    rw [hparent]

/-- **Deriving decides exactly.**  Of an item that can be read, the first violation is what it
fails as, and there is none exactly if the item can be derived for.  Then it yields the tables that
describe the item, unless the name of the item is raw. -/
theorem derivable_exactly (item : Item) :
    (item.isReadable = false → ofItem item = .error .unreadable) ∧
    (item.isReadable = true →
      (∀ cause, item.violation? = some cause → ofItem item = .error cause.failure) ∧
      (item.violation? = none ↔ item.Derivable) ∧
      (item.Derivable → isRaw item.name = true → ofItem item = .error .unnameable) ∧
      (item.Derivable → isRaw item.name = false →
        ∃ e, ofItem item = .ok e ∧ e.Describes item) ∧
      ((∃ e, ofItem item = .ok e) ↔ item.Derivable ∧ isRaw item.name = false)) := by
  refine ⟨fun hunreadable => ?_, fun hreadable => ?_⟩
  · rw [ofItem, hunreadable]
    rfl
  have hviolation (cause : Rejection) (h : item.violation? = some cause) :
      ofItem item = .error cause.failure := by
    rw [ofItem_eq hreadable, h]
  have hraw (h : item.Derivable) (hname : isRaw item.name = true) :
      ofItem item = .error .unnameable := by
    rw [ofItem_eq hreadable, Item.violation?_eq_none_iff.mpr h]
    exact if_pos hname
  have hok (h : item.Derivable ∧ isRaw item.name = false) : ofItem item = .ok (ofMembers item) :=
    (ofItem_eq_ok_iff hreadable).mpr ⟨h, rfl⟩
  refine ⟨hviolation, Item.violation?_eq_none_iff, hraw,
    fun h hname => ⟨_, hok ⟨h, hname⟩, ofMembers_describes item⟩, ?_, fun h => ⟨_, hok h⟩⟩
  rintro ⟨e, he⟩
  exact ((ofItem_eq_ok_iff hreadable).mp he).1

/-- A struct with a parent, a field with a raw name, a field that is skipped and a marker. -/
def parcel : Item where
  name := "Parcel"
  isGeneric := false
  body := .struct
    [⟨some "base", ⟨"Base", some "Base", true⟩, [.options [.word "parent"]]⟩,
      ⟨some "r#type", ⟨"u8", some "u8", true⟩, [.foreign]⟩,
      ⟨some "cache", ⟨"u64", some "u64", true⟩, [.options [], .options [.word "skip"]]⟩,
      ⟨some "mark", ⟨"PhantomData<u8>", some "PhantomData", true⟩, []⟩]

theorem derivable_exactly_parcel :
    parcel.Derivable ∧ ∃ e, ofItem parcel = .ok e ∧ e.Describes parcel ∧
      e.fields = [("r#type", false), ("cache", true), ("mark", true)] := by
  obtain ⟨_, hderivable, _, hok, _⟩ := (derivable_exactly parcel).2 (by decide)
  have hparcel : parcel.Derivable := hderivable.mp (by decide)
  obtain ⟨e, he, hdescribes⟩ := hok hparcel (by decide +kernel)
  exact ⟨hparcel, e, he, hdescribes, hdescribes.fields.trans (by decide)⟩

/-- A struct without fields and with a raw name. -/
def rawUnit : Item := ⟨"r#Struct", false, .struct []⟩

/-- A struct with a raw name is not derived for although nothing is wrong with it.  The name of its
constant would have the mark of raw names in the middle. -/
theorem not_forall_derivable_isOk :
    ¬ ∀ item : Item, item.isReadable = true → item.Derivable → ∃ e, ofItem item = .ok e := by
  intro h
  have hderivable : rawUnit.Derivable := Item.violation?_eq_none_iff.mp (by decide)
  have hfails : ofItem rawUnit = .error .unnameable := by decide +kernel
  obtain ⟨e, he⟩ := h rawUnit (by decide) hderivable
  rw [hfails] at he
  cases he

end StructExpansion

end MemoKey.Derive
