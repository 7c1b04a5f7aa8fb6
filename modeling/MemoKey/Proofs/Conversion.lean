import MemoKey.Conversion.ArgType
import MemoKey.Opaque.Datum
import MemoKey.Proofs.Outcome
import MemoKey.Proofs.Placement
import MemoKey.Proofs.Separation

/-!
# Conversions keep values apart

Several types share one variant of argument: unsigned numbers widen or are reinterpreted, a missing
value becomes the absent one, and pointers vanish.  Within one type nothing is lost all the same.
Two values of a type of plain data convert to one draft only if they are equal, and the keys of two
drafts of plain data are equal only if the drafts are.

## Values and drafts

`ArgType.IsData` are the types of plain data: built from scalars, texts and other atoms by pointers,
arrays and collections, and by options of types whose values never convert to the absent one.
`ArgType.toDraft_injective` is by induction over these types.

## Drafts and keys

`Draft.IsPlain` says that a draft is neither an object nor a value that exists already, apart from
atoms, and everything that converts from data is made of such drafts (`ArgType.each_toDraft`).  What
realizes them has no cycles and nothing that cannot be read, so there is a key
(`Config.structuralKey_of_plain`), and it is equal for two of them only if the drafts are
(`Store.Realizes.alike_iff`).

The main statement is `ArgType.keys_tell_values_apart`.
-/

namespace MemoKey

variable {ω : Type}

/-! ## Values and drafts -/

/-- No two values of a scalar type convert to one primitive: a wider kind has room for all of them,
and a reinterpreted one keeps every bit. -/
lemma ScalarType.toPrimitive_injective (s : ScalarType) : Function.Injective s.toPrimitive := by
  intro x y h
  cases s with
  | int8 => exact Primitive.int8.inj h
  | int16 => exact Primitive.int16.inj h
  | int32 => exact Primitive.int32.inj h
  | int64 | intSize => exact Primitive.int64.inj h
  | nat8 => exact UInt8.toUInt16_inj.mp (congrArg Int16.toUInt16 (Primitive.int16.inj h))
  | nat16 => exact UInt16.toUInt32_inj.mp (congrArg Int32.toUInt32 (Primitive.int32.inj h))
  | nat32 => exact UInt32.toUInt64_inj.mp (congrArg Int64.toUInt64 (Primitive.int64.inj h))
  | nat64 | natSize => exact congrArg Int64.toUInt64 (Primitive.int64.inj h)
  | char => exact Primitive.char.inj h
  | float32 => exact Primitive.float32.inj h
  | float64 => exact Primitive.float64.inj h
  | bool => exact Primitive.bool.inj h

namespace ArgType

/-- The types of plain data.  An option is one of them if its content never converts to the absent
value, which stands for a content that is missing. -/
def IsData (ω : Type) : ArgType → Prop
  | value | array | object => False
  | pointer item | slice item | vector _ item | list item | deque item | set item =>
    item.IsData ω
  | option content => content.IsData ω ∧ ∀ x : content.Carrier ω, content.toDraft x ≠ .null
  | map key content => key.IsData ω ∧ content.IsData ω
  | scalar _ | text | typeName | constant | primitive => True

/-- **Values of a type of plain data are told apart by their drafts.** -/
theorem toDraft_injective {t : ArgType} (ht : t.IsData ω) :
    Function.Injective (t.toDraft : t.Carrier ω → Draft ω) := by
  induction t with
  | scalar s =>
    intro x y h
    exact s.toPrimitive_injective (Atom.primitive.inj (Value.atom.inj (Draft.stored.inj h)))
  | text =>
    intro x y h
    exact Atom.text.inj (Value.atom.inj (Draft.stored.inj h))
  | typeName =>
    intro x y h
    exact Atom.type.inj (Value.atom.inj (Draft.stored.inj h))
  | constant =>
    intro x y h
    exact Atom.constant.inj (Value.atom.inj (Draft.stored.inj h))
  | primitive =>
    intro x y h
    exact Atom.primitive.inj (Value.atom.inj (Draft.stored.inj h))
  | value | array | object => exact ht.elim
  | pointer target ih => exact ih ht
  | option content ih =>
    obtain ⟨hcontent, hnull⟩ := ht
    rintro (_ | x) (_ | y) h
    · rfl
    · exact absurd h.symm (hnull y)
    · exact absurd h (hnull x)
    · exact congrArg some (ih hcontent h)
  | slice item ih | list item ih | deque item ih | set item ih =>
    intro xs ys h
    exact List.map_injective_iff.mpr (ih ht) (Draft.seq.inj h).2
  | vector length item ih =>
    intro xs ys h
    exact Vector.toList_inj.mp (List.map_injective_iff.mpr (ih ht) (Draft.seq.inj h).2)
  | map key content ihkey ihcontent =>
    obtain ⟨hkey, hcontent⟩ := ht
    intro xs ys h
    have hentry : Function.Injective (Prod.map (toDraft key : key.Carrier ω → Draft ω)
        (toDraft content)) := (ihkey hkey).prodMap (ihcontent hcontent)
    exact List.map_injective_iff.mpr hentry (Draft.map.inj h)

end ArgType

/-! ## Drafts and keys -/

namespace Draft

/-- A draft is neither an object nor a value that exists already, apart from atoms. -/
def IsPlain : Draft ω → Prop
  | stored (.atom _) | seq _ _ | map _ => True
  | stored _ | object _ _ => False

/-- Plain drafts are determined by their headings and parts, apart from atoms. -/
lemma eq_iff_of_heading {draft other : Draft ω} (hdraft : draft.IsPlain)
    (h : draft.heading? ≠ none) :
    draft = other ↔ draft.heading? = other.heading? ∧ draft.parts = other.parts := by
  cases draft with
  | stored value => exact absurd rfl h
  | seq sequence items => cases other <;> simp [heading?, parts]
  | map entries =>
    cases other with
    | map others =>
      refine ⟨fun h => ⟨rfl, congrArg parts h⟩, fun h => congrArg map ?_⟩
      have hflat : List.Forall₂ Eq (entries.flatMap fun e => [e.1, e.2])
          (others.flatMap fun e => [e.1, e.2]) := List.forall₂_eq_eq_eq ▸ h.2
      exact List.forall₂_eq_eq_eq ▸ (forall₂_entries hflat).imp fun _ _ he => Prod.ext he.1 he.2
    | stored | seq | object => simp [heading?]
  | object type fields => exact hdraft.elim

end Draft

/-- Everything that converts from plain data is plain. -/
lemma ArgType.each_toDraft {t : ArgType} (ht : t.IsData ω) (x : t.Carrier ω) :
    (t.toDraft x).Each Draft.IsPlain := by
  induction t with
  | scalar | text | typeName | constant | primitive => exact .of_stored trivial
  | value | array | object => exact ht.elim
  | pointer target ih => exact ih ht x
  | option content ih =>
    cases x with
    | none => exact .of_stored trivial
    | some x => exact ih ht.1 x
  | slice item ih | list item ih | deque item ih | set item ih | vector length item ih =>
    exact .of_seq trivial (ih ht)
  | map key content ihkey ihcontent => exact .of_map trivial (ihkey ht.1) (ihcontent ht.2)

/-- Lists correspond to equal lists exactly if their members correspond to equal members. -/
lemma forall₂_iff_eq {α β γ : Type} {R : α → β → Prop} {S : α → γ → Prop} {T : β → γ → Prop}
    {xs xs' : List α} {ys : List β} {zs : List γ} (h : List.Forall₂ R xs ys)
    (h' : List.Forall₂ S xs' zs)
    (hT : ∀ x ∈ xs, ∀ x' ∈ xs', ∀ y z, R x y → S x' z → (T y z ↔ x = x')) :
    List.Forall₂ T ys zs ↔ xs = xs' := by
  induction h generalizing xs' zs with
  | nil => cases h' <;> simp
  | @cons x y xs ys hxy _ ih =>
    cases h' with
    | nil => simp
    | @cons x' z xs' zs hxz hrest =>
      have hheads : T y z ↔ x = x' := hT x List.mem_cons_self x' List.mem_cons_self y z hxy hxz
      rw [List.forall₂_cons, List.cons.injEq, hheads, ih hrest fun a ha a' ha' =>
        hT a (List.mem_cons_of_mem x ha) a' (List.mem_cons_of_mem x' ha')]

namespace Store.Realizes

variable {s t : Store ω} {made made' : Identity → Prop} {draft draft' : Draft ω} {v w : Value ω}

/-- What realizes a plain draft is an atom, or a composite that is no object with parts that
realize the parts of the draft. -/
lemma cases_of_plain (h : s.Realizes made draft v) (hplain : draft.IsPlain) (reflect : Bool) :
    (∃ a, draft = .stored (.atom a) ∧ v = .atom a) ∨
      ∃ id cell, s.sight reflect v = .composite id cell ∧ cell.unreadable? = none ∧
        draft.heading? = some cell.heading ∧
        List.Forall₂ (s.Realizes made) draft.parts cell.parts := by
  cases h with
  | stored v =>
    cases v with
    | atom a => exact .inl ⟨a, rfl, rfl⟩
    | whole | ref => exact hplain.elim
  | @composite _ _ id cell _ hcell hheading hmembers =>
    refine .inr ⟨id, cell, ?_⟩
    cases draft with
    | stored value => cases hheading
    | object type fields => exact hplain.elim
    | seq sequence items =>
      cases cell with
      | map | object => simp [Draft.heading?, Cell.heading] at hheading
      | seq =>
        exact ⟨by simp [sight, hcell, Cell.isObject], rfl, hheading,
          SameResult.forall₂_of_ok hmembers⟩
    | map entries =>
      cases cell with
      | seq | object => simp [Draft.heading?, Cell.heading] at hheading
      | map =>
        exact ⟨by simp [sight, hcell, Cell.isObject], rfl, hheading,
          SameResult.forall₂_of_ok hmembers⟩

/-- **Values that realize plain drafts are alike exactly if the drafts are equal.** -/
theorem alike_iff [OpaqueValue ω] (hv : s.Realizes made draft v) (hw : t.Realizes made' draft' w)
    (hdraft : draft.Each Draft.IsPlain) (hdraft' : draft'.Each Draft.IsPlain) (reflect : Bool) :
    s.Alike t reflect v w ↔ draft = draft' := by
  induction hdraft generalizing draft' v w with
  | @intro draft hself _ ih =>
    rcases hv.cases_of_plain hself reflect with
      ⟨a, rfl, rfl⟩ | ⟨id, cell, hsight, _, hheading, hparts⟩
    · rw [alike_iff_of_atom rfl]
      rcases hw.cases_of_plain hdraft'.self reflect with
        ⟨b, rfl, rfl⟩ | ⟨other, cell', hsight', _, hheading', _⟩
      · simp [sight, eq_comm]
      · rw [hsight']
        refine iff_of_false (fun halike => ?_) ?_
        · cases halike
        · rintro rfl
          cases hheading'
    · rw [alike_iff_of_composite hsight, Draft.eq_iff_of_heading hself (by simp [hheading])]
      rcases hw.cases_of_plain hdraft'.self reflect with
        ⟨b, rfl, rfl⟩ | ⟨other, cell', hsight', _, hheading', hparts'⟩
      · refine iff_of_false ?_ ?_
        · rintro ⟨_, _, hsight', _⟩
          cases hsight'
        · rintro ⟨hnone, _⟩
          rw [hheading] at hnone
          cases hnone
      · have hequal : List.Forall₂ (s.Alike t reflect) cell.parts cell'.parts ↔
            draft.parts = draft'.parts :=
          forall₂_iff_eq hparts hparts' fun part hpart part' hpart' _ _ hrealizes hrealizes' =>
            ih part hpart hrealizes hrealizes' (hdraft'.part hpart')
        rw [hsight', hheading, hheading']
        simp [hequal]

/-- A walk over what realizes a plain draft meets nothing that cannot be read. -/
lemma halt_ne_fault (h : s.Realizes made draft v) (hdraft : draft.Each Draft.IsPlain)
    (reflect : Bool) (limit : Nat) (g : Guard) (fault : Fault) :
    (Walk.trace s reflect limit g v).halt ≠ some (.fault fault) := by
  induction hdraft generalizing v limit g with
  | intro hself _ ih =>
    rcases h.cases_of_plain hself reflect with
      ⟨a, rfl, rfl⟩ | ⟨id, cell, hsight, hreadable, _, hparts⟩
    · rw [Walk.trace_of_atom rfl]
      exact nofun
    · cases hcut : g.cuts id with
      | true =>
        rw [Walk.trace_of_cuts hsight hcut]
        exact nofun
      | false =>
        cases limit with
        | zero =>
          rw [Walk.halt_trace_zero hsight hcut]
          exact nofun
        | succ limit =>
          rw [Walk.halt_trace_succ hsight hcut, hreadable]
          intro hhalt
          obtain ⟨w, hw, hfault⟩ := List.exists_of_findSome?_eq_some hhalt
          obtain ⟨part, hpart, hrealizes⟩ := exists_of_mem_right hparts hw
          exact ih part hpart hrealizes limit (g.below id) hfault

lemma acyclic_of_plain (h : s.Realizes made draft v) (hdraft : draft.Each Draft.IsPlain)
    (reflect : Bool) : s.Acyclic reflect v := by
  refine h.acyclic (hdraft.imp fun part hpart u hu => ?_)
  subst hu
  cases u with
  | atom a => exact acyclic_atom s reflect a
  | whole | ref => exact hpart.elim

end Store.Realizes

namespace Config

variable {c : Config} {s : Store ω} {made : Identity → Prop} {draft : Draft ω} {v : Value ω}

/-- A single argument of plain data has a key, and the key is the tree of the argument. -/
lemma structuralKey_of_plain (hc : c.includesSignature = false)
    (h : s.Realizes made draft v) (hdraft : draft.Each Draft.IsPlain) (session : Session) :
    (c.structuralKey s { arguments := [v] } session).1 = .ok ⟨[s.unfold c.useReflection [] v]⟩ := by
  let call : Invocation ω := { arguments := [v] }
  have hacyclic : ∀ u ∈ call.arguments, s.Acyclic c.useReflection u :=
    List.forall_mem_singleton.mpr (h.acyclic_of_plain hdraft c.useReflection)
  have hhalt : (c.trace s call).halt = none := by
    refine Trace.halt_all_eq_none.mpr (List.forall_mem_singleton.mpr ?_)
    cases hend : (Walk.trace s c.useReflection s.size (Guard.empty c.checkForCycles) v).halt with
    | none => rfl
    | some halt =>
      cases halt with
      | fault fault => exact absurd hend (h.halt_ne_fault hdraft _ _ _ fault)
      | endless =>
        have hsuffices := suffices_size (c := c) (.inr hacyclic) (List.mem_singleton_self v)
        exact absurd hend hsuffices.halt_ne_endless
  have hreport : c.report s call = .ok (Node.itemEvents (c.nodes s call)) := by
    rw [report_of_signature s (by simp [hc]), hhalt]
  have hnodes : c.nodes s call = [s.unfold c.useReflection [] v] :=
    nodes_eq_unfold_of_acyclic hacyclic
  rw [structuralKey_fst, hreport, hnodes]
  exact congrArg Except.ok (StructuralKey.ofEvents_itemEvents _)

end Config

/-! ## Arguments -/

namespace ArgType

/-- **Different values of one type never share a structural key.**  Two values of a type of plain
data, each converted into a store of its own or both into one, are arguments of calls that have a
structural key whenever it does not include a signature.  The keys are equal exactly if the values
are. -/
theorem keys_tell_values_apart [OpaqueValue ω] {t : ArgType} (ht : t.IsData ω) {c : Config}
    (hc : c.includesSignature = false) (a b : t.Carrier ω) {s r store store' : Store ω}
    (hstore : store.Keeps s ((t.toDraft a).place s).2)
    (hstore' : store'.Keeps r ((t.toDraft b).place r).2) (session session' : Session) :
    let key (u : Store ω) (v : Value ω) (session : Session) :=
      (c.structuralKey u { arguments := [v] } session).1
    ∃ keyA keyB, key store ((t.toDraft a).place s).1 session = .ok keyA ∧
      key store' ((t.toDraft b).place r).1 session' = .ok keyB ∧
      (keyA.same keyB = true ↔ a = b) := by
  intro key
  have ha : store.Realizes (s.Made ((t.toDraft a).place s).2) (t.toDraft a)
      ((t.toDraft a).place s).1 :=
    ((t.toDraft a).realizes_place s).2.mono fun id hid => ⟨hid, hstore id hid⟩
  have hb : store'.Realizes (r.Made ((t.toDraft b).place r).2) (t.toDraft b)
      ((t.toDraft b).place r).1 :=
    ((t.toDraft b).realizes_place r).2.mono fun id hid => ⟨hid, hstore' id hid⟩
  refine ⟨_, _, Config.structuralKey_of_plain hc ha (each_toDraft ht a) session,
    Config.structuralKey_of_plain hc hb (each_toDraft ht b) session', ?_⟩
  have hplain := each_toDraft ht a
  have hplain' := each_toDraft ht b
  have hkeys := Store.same_unfold_iff (ha.acyclic_of_plain hplain c.useReflection)
    (hb.acyclic_of_plain hplain' c.useReflection) Store.clear_nil Store.clear_nil
  rw [StructuralKey.same, Node.sameItems_iff, List.forall₂_cons, hkeys,
    ha.alike_iff hb hplain hplain' c.useReflection, (toDraft_injective ht).eq_iff]
  simp

/-- Maps from texts to lists of unsigned numbers that may be missing: which number is missing shows
in the key, and so does the largest number, which is reinterpreted. -/
theorem keys_tell_values_apart_stock :
    let t : ArgType := .map .text (.list (.pointer (.option (.scalar .nat64))))
    let a : List (String × List (Option UInt64)) := [("apples", [some 0xffffffffffffffff, none])]
    let b : List (String × List (Option UInt64)) := [("apples", [none, some 0xffffffffffffffff])]
    let placed (x : t.Carrier Datum) : Value Datum × Store Datum := (t.toDraft x).place {}
    let key (x : t.Carrier Datum) :=
      (Config.argumentsOnly.structuralKey (placed x).2 { arguments := [(placed x).1] } {}).1
    t.IsData Datum ∧
      key a = .ok ⟨[.map [(.atom (.text "apples"),
        .seq .list [.atom (.primitive (.int64 (-1))), .atom .null])]]⟩ ∧
      ∃ keyA keyB, key a = .ok keyA ∧ key b = .ok keyB ∧ keyA.same keyB = false := by
  intro t a b placed key
  have ht : t.IsData Datum := ⟨trivial, trivial, fun x => by simp [toDraft]⟩
  obtain ⟨keyA, keyB, ha, hb, hiff⟩ := keys_tell_values_apart ht (c := Config.argumentsOnly) rfl a b
    (Store.keeps_self {} _) (Store.keeps_self {} _) {} {}
  have hne : a ≠ b := by decide
  exact ⟨ht, rfl, keyA, keyB, ha, hb, Bool.eq_false_iff.mpr fun hsame => hne (hiff.mp hsame)⟩

end ArgType

end MemoKey
