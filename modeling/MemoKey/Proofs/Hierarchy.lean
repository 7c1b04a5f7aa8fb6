import Mathlib
import MemoKey.Derive.Instance
import MemoKey.Proofs.Trace

/-!
# Hierarchies of derived structs

The layout of a derived struct is put together from descriptions of types, and the values are read
by owner and name through the embedded parents.  The two go different ways, and for every hierarchy
they come to the same slots.

* `Field.role` is the part that a field plays by its marks and its type, `Item.members` are the
  fields of an item with their roles.  `members_ofItem` says that deriving finds them.
* `Lineage` is a value of a derived struct with the values of its ancestors.  `Lineage.listed` are
  its slots with their contents: the fields that are neither skipped nor markers nor the parent, in
  order, and then those of each ancestor in turn.
* `Lineage.layout_info` and `Lineage.read_toInstance` are the two ways, and
  `Lineage.IsObject.extract_eq` puts them together.
-/

namespace MemoKey.Object

variable {ω : Type}

lemma read_snapshot {o : Object ω} {slot : Slot} (h : slot ∈ o.type.layout) :
    o.snapshot.read slot = o.read slot := by
  have hlookup (slots : List Slot) (hslot : slot ∈ slots) :
      (slots.map fun slot => (slot, o.read slot)).lookup slot = some (o.read slot) := by
    induction slots with
    | nil => simp at hslot
    | cons first rest ih =>
      rw [List.map_cons, List.lookup_cons]
      by_cases hfirst : slot = first
      · simp [hfirst]
      · rw [beq_false_of_ne hfirst]
        exact ih ((List.mem_cons.mp hslot).resolve_left hfirst)
  exact congrArg Option.join (hlookup _ h)

end MemoKey.Object

namespace MemoKey.Derive

/-! ## What deriving finds -/

lemma exists_of_bind_eq_ok {ε α β : Type} {x : Except ε α} {f : α → Except ε β} {b : β}
    (h : x >>= f = .ok b) : ∃ a, x = .ok a ∧ f a = .ok b := by
  cases x with
  | error e => cases h
  | ok a => exact ⟨a, rfl, h⟩

/-- Whether an attribute carries an option. -/
def Attribute.carries (word : String) : Attribute → Bool
  | .options items => items.contains (.word word)
  | _ => false

/-- The part that a field plays by its marks and its type. -/
def Field.role (field : Field) : Role :=
  if field.attributes.any (·.carries "parent") then .parent
  else if field.attributes.any (·.carries "skip") || field.type.isPhantom then .synthetic
  else .plain

/-- What is neither synthetic nor the parent is plain. -/
lemma Role.eq_plain (role : Role) :
    (!(role == .synthetic) && role != .parent) = (role == .plain) := by
  cases role <;> rfl

namespace Item

/-- The fields of a struct. -/
def fields (item : Item) : List Field :=
  match item.body with
  | .struct fields => fields
  | _ => []

/-- The fields of a struct with their names and roles, in order of declaration. -/
def members (item : Item) : List Member :=
  item.fields.zipIdx.map fun f => ⟨f.1.label f.2, f.1.type, f.1.role⟩

/-- The fields of a struct have names, no two of them the same, or they are those of a tuple. -/
def WellNamed (item : Item) : Prop :=
  ((∀ field ∈ item.fields, field.name?.isSome) ∧ (item.fields.map (·.name?)).Nodup) ∨
    ∀ field ∈ item.fields, field.name? = none

instance (item : Item) : Decidable item.WellNamed :=
  inferInstanceAs (Decidable (_ ∨ _))

lemma nodup_labels {item : Item} (h : item.WellNamed) : (item.members.map (·.label)).Nodup := by
  have hfields : item.members.map (·.label) = item.fields.zipIdx.map fun f => f.1.label f.2 := by
    rw [members, List.map_map]
    rfl
  rw [hfields]
  rcases h with ⟨hnamed, hnodup⟩ | htuple
  · have hnames : (item.fields.zipIdx.map fun f => f.1.label f.2).map some =
        item.fields.map (·.name?) := by
      conv_rhs => rw [← List.zipIdx_map_fst 0 item.fields]
      rw [List.map_map, List.map_map]
      refine List.map_congr_left fun f hf => ?_
      obtain ⟨name, hname⟩ := Option.isSome_iff_exists.mp
        (hnamed f.1 (List.fst_mem_of_mem_zipIdx hf))
      simp [Field.label, hname]
    exact List.Nodup.of_map some (hnames ▸ hnodup)
  · have hindices : (item.fields.zipIdx.map fun f => f.1.label f.2) =
        (List.range' 0 item.fields.length).map Nat.repr := by
      rw [← List.zipIdx_map_snd, List.map_map]
      refine List.map_congr_left fun f hf => ?_
      simp [Field.label, htuple f.1 (List.fst_mem_of_mem_zipIdx hf)]
    rw [hindices]
    exact List.Nodup.map (fun _ _ h => Nat.repr_inj.mp h) List.nodup_range'

lemma find?_label {item : Item} (h : item.WellNamed) {m : Member} (hm : m ∈ item.members)
    (hplain : (m.role == .plain) = true) :
    (item.members.find? fun other => other.role == .plain && other.label == m.label) = some m := by
  cases hfound : item.members.find? fun other => other.role == .plain && other.label == m.label with
  | none =>
    have hnone := List.find?_eq_none.mp hfound m hm
    simp [hplain] at hnone
  | some other =>
    have hsome := List.find?_some hfound
    simp only [Bool.and_eq_true, beq_iff_eq] at hsome
    have hother : other ∈ item.members := List.mem_of_find?_eq_some hfound
    rw [List.inj_on_of_nodup_map (nodup_labels h) hother hm hsome.2]

end Item

namespace Options

/-- Options that are taken one after the other are all there in the end. -/
lemma foldlM_eq_ok {α : Type} {step : Options → α → Except Rejection Options} {p q : α → Bool}
    (hstep : ∀ o x o', step o x = .ok o' →
      o'.skip = (o.skip || p x) ∧ o'.parent = (o.parent || q x))
    {xs : List α} {o o' : Options} (h : xs.foldlM step o = .ok o') :
    o'.skip = (o.skip || xs.any p) ∧ o'.parent = (o.parent || xs.any q) := by
  induction xs generalizing o with
  | nil =>
    cases h
    simp
  | cons x rest ih =>
    rw [List.foldlM_cons] at h
    obtain ⟨next, hnext, hrest⟩ := exists_of_bind_eq_ok h
    obtain ⟨hskip, hparent⟩ := ih hrest
    obtain ⟨hskip', hparent'⟩ := hstep o x next hnext
    rw [hskip, hskip', hparent, hparent', List.any_cons, List.any_cons, Bool.or_assoc,
      Bool.or_assoc]
    exact ⟨rfl, rfl⟩

lemma addItem_eq_ok (o : Options) (item : OptionItem) (o' : Options)
    (h : addItem o item = .ok o') :
    o'.skip = (o.skip || item == .word "skip") ∧
      o'.parent = (o.parent || item == .word "parent") := by
  unfold addItem at h
  split at h <;> cases h <;> simp

lemma addAttribute_eq_ok (o : Options) (a : Attribute) (o' : Options)
    (h : addAttribute o a = .ok o') :
    o'.skip = (o.skip || a.carries "skip") ∧ o'.parent = (o.parent || a.carries "parent") := by
  unfold addAttribute at h
  split at h
  · simpa only [Attribute.carries, List.contains_eq_any_beq, Bool.beq_comm] using
      foldlM_eq_ok addItem_eq_ok h
  all_goals cases h
  simp [Attribute.carries]

lemma role_eq {field : Field} {o : Options} (h : ofField field = .ok o) :
    o.role field.type = field.role := by
  obtain ⟨found, hfound, hthrow⟩ := exists_of_bind_eq_ok h
  obtain ⟨hskip, hparent⟩ := foldlM_eq_ok addAttribute_eq_ok hfound
  have ho : found = o := by
    split at hthrow
    · cases hthrow
    · cases hthrow
      rfl
  rw [← ho, role, hskip, hparent]
  simp [Field.role]

end Options

lemma membersFrom_eq {index : Nat} {hasParent : Bool} {fields : List Field}
    {members : List Member} (h : membersFrom index hasParent fields = .ok members) :
    members = (fields.zipIdx index).map fun f => ⟨f.1.label f.2, f.1.type, f.1.role⟩ := by
  induction fields generalizing index hasParent members with
  | nil =>
    cases h
    rfl
  | cons field rest ih =>
    obtain ⟨o, ho, h⟩ := exists_of_bind_eq_ok h
    simp only at h
    split at h
    · cases h
    obtain ⟨members', hmembers, h⟩ := exists_of_bind_eq_ok h
    cases h
    rw [ih hmembers, Options.role_eq ho, List.zipIdx_cons, List.map_cons]

/-- Deriving finds the members of an item. -/
lemma members_ofItem {item : Item} {e : StructExpansion} (h : StructExpansion.ofItem item = .ok e) :
    e.members = item.members ∧ e.typeName = item.name := by
  simp only [StructExpansion.ofItem, bind, Except.bind, pure, Except.pure, throw, throwThe,
    MonadExceptOf.throw] at h
  split at h
  · cases h
  split at h
  · cases h
  cases hbody : item.body with
  | enum | union =>
    rw [hbody] at h
    cases h
  | struct fields =>
    rw [hbody] at h
    simp only at h
    cases hmembers : Derive.members fields with
    | error cause =>
      rw [hmembers] at h
      cases h
    | ok found =>
      rw [hmembers] at h
      simp only [Except.mapError] at h
      split at h
      · cases h
      · cases h
        refine ⟨?_, rfl⟩
        rw [membersFrom_eq hmembers, Item.members, Item.fields, hbody]

/-! ## Values with their ancestors -/

lemma sizeOf_le_of_mem_ancestry {info other : TypeInfo} (h : other ∈ info.ancestry) :
    sizeOf other ≤ sizeOf info := by
  induction info with
  | root decl =>
    rw [List.mem_singleton.mp h]
  | extending decl parent ih =>
    rcases List.mem_cons.mp h with rfl | hparent
    · exact Nat.le_refl _
    · have hle := ih hparent
      simp only [TypeInfo.extending.sizeOf_spec]
      omega

/-- No type is an ancestor of its own parent. -/
lemma extending_notMem_ancestry (decl : TypeDecl) (parent : TypeInfo) :
    TypeInfo.extending decl parent ∉ parent.ancestry := by
  intro h
  have hle := sizeOf_le_of_mem_ancestry h
  simp only [TypeInfo.extending.sizeOf_spec] at hle
  omega

/-- A struct for which fields have been derived. -/
structure Declaration where
  /-- The number that sets the struct apart from all others. -/
  serial : Nat
  /-- The module in which the struct is declared. -/
  module : String
  item : Item
  wellNamed : item.WellNamed
  expansion : StructExpansion
  derived : StructExpansion.ofItem item = .ok expansion

namespace Declaration

/-- What the description of the type says about the struct: its name, and every field but the
parent, each with whether it is left out of keys. -/
def decl (d : Declaration) : TypeDecl where
  serial := d.serial
  name := ⟨d.module ++ "::" ++ d.item.name⟩
  fields := (listed d.item.members).map fun m => ⟨m.label, m.role == .synthetic⟩

/-- The fields that are neither skipped nor phantom markers nor the parent. -/
def kept (d : Declaration) : List Member :=
  readable d.item.members

/-- Whether a field is marked as the parent. -/
def hasParent (d : Declaration) : Bool :=
  d.item.members.any (·.role == .parent)

/-- The part of a value that the struct declares. -/
def level {α : Type} (d : Declaration) (content : Member → α) : Level α :=
  d.expansion.level d.serial d.module content

variable {α : Type} (d : Declaration) (content : Member → α)

lemma decl_level : (d.level content).decl = d.decl := by
  obtain ⟨hmembers, hname⟩ := members_ofItem d.derived
  have hlevel : (d.level content).members = d.item.members := by
    rw [level, StructExpansion.level, Level.members, List.map_map, hmembers]
    exact List.map_id _
  rw [Level.decl, hlevel, decl, ← hname]
  rfl

/-- A field is read by its name, whatever else the struct has. -/
lemma read_level {m : Member} (h : m ∈ d.kept) :
    (d.level content).read m.label = some (content m) := by
  obtain ⟨hmember, hrole⟩ := List.mem_filter.mp h
  have hfind : (d.item.members.find? fun other => other.role == .plain && other.label == m.label) =
      some m := Item.find?_label d.wellNamed hmember hrole
  obtain ⟨hmembers, _⟩ := members_ofItem d.derived
  rw [level, StructExpansion.level, Level.read, hmembers, List.find?_map]
  simp only [Function.comp_def, hfind, Option.map_some]

/-- The slots of the struct are those of the fields that are kept. -/
lemma ownSlots_eq {info : TypeInfo} (h : info.decl = d.decl) :
    info.ownSlots = d.kept.map fun m => ⟨info, m.label⟩ := by
  rw [TypeInfo.ownSlots, TypeInfo.fields, h, decl, List.filter_map, List.map_map, listed,
    List.filter_filter, kept, readable]
  simp only [Function.comp_def, Role.eq_plain]

end Declaration

/-- A value of a derived struct: contents for its fields, and a value of the parent struct if a
field is marked as the parent. -/
inductive Lineage (α : Type) where
  | root (d : Declaration) (alone : d.hasParent = false) (content : Member → α)
  | extending (d : Declaration) (inherits : d.hasParent = true) (content : Member → α)
    (parent : Lineage α)

namespace Lineage

variable {α β : Type}

/-- The description of the type. -/
def info : Lineage α → TypeInfo
  | root d _ _ => .root d.decl
  | extending d _ _ parent => .extending d.decl parent.info

/-- The slots with their contents: the fields that the struct keeps, in order of declaration, and
then those of each ancestor in turn. -/
def listed : Lineage α → List (Slot × α)
  | root d h content => d.kept.map fun m => (⟨(root d h content).info, m.label⟩, content m)
  | extending d h content parent =>
    (d.kept.map fun m => (⟨(extending d h content parent).info, m.label⟩, content m)) ++
      parent.listed

/-- The value with its contents converted. -/
def toInstance (convert : α → β) : Lineage α → Instance β
  | root d _ content => .root (d.level (convert ∘ content))
  | extending d _ content parent =>
    .extending (d.level (convert ∘ content)) (parent.toInstance convert)

variable (x : Lineage α) (convert : α → β)

lemma info_toInstance : (x.toInstance convert).info = x.info := by
  induction x with
  | root d h content => rw [toInstance, Instance.info, d.decl_level, info]
  | extending d h content parent ih => rw [toInstance, Instance.info, d.decl_level, ih, info]

/-- The layout that is put together from the descriptions of types lists the slots. -/
lemma layout_info : x.info.layout = x.listed.map (·.1) := by
  induction x with
  | root d h content =>
    rw [info, TypeInfo.layout_root, d.ownSlots_eq rfl, listed, List.map_map]
    rfl
  | extending d h content parent ih =>
    rw [info, TypeInfo.layout_extending, d.ownSlots_eq rfl, ih, listed, List.map_append,
      List.map_map]
    rfl

lemma owner_mem_ancestry {f : Slot × α} (h : f ∈ x.listed) : f.1.owner ∈ x.info.ancestry := by
  induction x with
  | root d hroot content =>
    obtain ⟨m, _, rfl⟩ := List.mem_map.mp h
    exact List.mem_singleton_self _
  | extending d hparent content parent ih =>
    rcases List.mem_append.mp h with hown | hinherited
    · obtain ⟨m, _, rfl⟩ := List.mem_map.mp hown
      exact List.mem_cons_self
    · exact List.mem_cons_of_mem _ (ih hinherited)

/-- Reading by owner and name finds the content of every slot. -/
lemma read_toInstance {f : Slot × α} (h : f ∈ x.listed) :
    (x.toInstance convert).read f.1 = some (convert f.2) := by
  induction x with
  | root d hroot content =>
    obtain ⟨m, hm, rfl⟩ := List.mem_map.mp h
    rw [toInstance, Instance.read, d.decl_level]
    simp only [Slot.isOwnedBy, info, beq_self_eq_true, if_true]
    exact d.read_level (convert ∘ content) hm
  | extending d hparent content parent ih =>
    rw [toInstance, Instance.read, d.decl_level, info_toInstance]
    rcases List.mem_append.mp h with hown | hinherited
    · obtain ⟨m, hm, rfl⟩ := List.mem_map.mp hown
      simp only [Slot.isOwnedBy, info, beq_self_eq_true, if_true]
      exact d.read_level (convert ∘ content) hm
    -- What an ancestor declares is owned by the ancestor, whatever it is called.
    · have howner : f.1.owner ≠ .extending d.decl parent.info := by
        intro howner
        exact extending_notMem_ancestry _ _ (howner ▸ parent.owner_mem_ancestry hinherited)
      simp only [Slot.isOwnedBy, beq_iff_eq, if_neg howner]
      exact ih hinherited

variable {ω : Type} {x : Lineage α} {convert : α → Value ω} {o : Object ω}

/-- The objects that a value is passed as: the value itself, or a snapshot of it. -/
def IsObject (x : Lineage α) (convert : α → Value ω) (o : Object ω) : Prop :=
  o = (x.toInstance convert).object ∨ o = (x.toInstance convert).object.snapshot

namespace IsObject

lemma type_eq (h : x.IsObject convert o) : o.type = x.info := by
  have hlive : (x.toInstance convert).object.type = x.info := x.info_toInstance convert
  rcases h with rfl | rfl <;> exact hlive

lemma layout_eq (h : x.IsObject convert o) : o.type.layout = x.listed.map (·.1) := by
  rw [h.type_eq, layout_info]

/-- A snapshot has captured every slot that is listed. -/
lemma read_eq (h : x.IsObject convert o) {f : Slot × α} (hf : f ∈ x.listed) :
    o.read f.1 = some (convert f.2) := by
  have hslot : f.1 ∈ (x.toInstance convert).object.type.layout := by
    rw [IsObject.layout_eq (.inl rfl)]
    exact List.mem_map_of_mem hf
  have hlive : (x.toInstance convert).object.read f.1 = some (convert f.2) :=
    x.read_toInstance convert hf
  rcases h with rfl | rfl
  · exact hlive
  · rw [Object.read_snapshot hslot, hlive]

end IsObject

end Lineage

end MemoKey.Derive
