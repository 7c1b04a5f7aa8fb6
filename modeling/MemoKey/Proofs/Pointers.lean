import MemoKey.Proofs.Arrays
import MemoKey.Proofs.Conversion
import MemoKey.Proofs.Snapshot

/-!
# Pointers do not show

A conversion goes through pointers without a trace.  A value behind any number of them is converted
as the value itself, and an array of such values as the array of what the pointers lead to.  This
includes the kind of the array, which hangs on the type of the items alone and is the only thing
that an empty array has.

## Types and kinds

`ArgType.behind` puts pointers around a type, and `ArgType.target` goes back through them.  By
`ArgType.elementKind_eq_primitive_iff` the arrays of primitives are those of the scalar types.

## Conversions that come to the same

`ArgType.ConvertAlike` relates values of two types.  They become the same argument of any store, and
if they are converted separately, each has composites of its own but the calls come to the same.
Both hold of values with one draft (`ArgType.ConvertAlike.of_toDraft_eq`), since nothing that is
converted by its type is an object that would have to be opened.

The main statement is `ArgType.pointers_do_not_show`.
-/

namespace MemoKey

variable {ω : Type}

/-! ## Types and kinds -/

namespace ArgType

/-- A type behind a number of pointers. -/
def behind (t : ArgType) : Nat → ArgType
  | 0 => t
  | n + 1 => pointer (t.behind n)

/-- What the pointers lead to. -/
def target (t : ArgType) : (n : Nat) → (t.behind n).Carrier ω → t.Carrier ω
  | 0, x => x
  | n + 1, x => t.target n x

@[simp] lemma elementKind_behind (t : ArgType) (n : Nat) :
    (t.behind n).elementKind = t.elementKind := by
  induction n with
  | zero => rfl
  | succ n ih => exact ih

lemma toDraft_behind (t : ArgType) (n : Nat) (x : (t.behind n).Carrier ω) :
    (t.behind n).toDraft x = t.toDraft (t.target n x) := by
  induction n with
  | zero => rfl
  | succ n ih => exact ih x

/-- An array of values behind pointers is made as the array of what the pointers lead to. -/
lemma toDraft_slice_behind (t : ArgType) (n : Nat) (xs : List ((t.behind n).Carrier ω)) :
    (slice (t.behind n)).toDraft xs = (slice t).toDraft (xs.map (t.target n)) := by
  have hitems : (xs.map fun x => (t.behind n).toDraft x) =
      (xs.map (t.target n)).map fun x => t.toDraft x := by
    rw [List.map_map]
    exact List.map_congr_left fun x _ => t.toDraft_behind n x
  exact congrArg₂ (fun kind items => Draft.seq (.array kind) items) (t.elementKind_behind n) hitems

/-- Among the types that are not pointers, only scalars have arrays of primitives. -/
lemma elementKind_eq_primitive_iff {t : ArgType} (ht : ∀ target, t ≠ .pointer target)
    {kind : Primitive.Kind} :
    t.elementKind = .primitive kind ↔ ∃ s, t = .scalar s ∧ s.kind = kind := by
  cases t with
  | scalar s => simp [elementKind]
  | pointer target => exact absurd rfl (ht target)
  | _ => simp [elementKind]

lemma elementKind_eq_reference {t : ArgType} (ht : ∀ target, t ≠ .pointer target)
    (hscalar : ∀ s, t ≠ .scalar s) : t.elementKind = .reference := by
  cases hkind : t.elementKind with
  | reference => rfl
  | primitive kind =>
    obtain ⟨s, hs, _⟩ := (elementKind_eq_primitive_iff ht).mp hkind
    exact absurd hs (hscalar s)

/-- Nothing that converts by its type is an object that is not there already. -/
lemma each_toDraft_isOpen (t : ArgType) (x : t.Carrier ω) (reflect : Bool) :
    (t.toDraft x).Each fun part => part.IsOpen reflect := by
  induction t with
  | scalar | text | typeName | constant | primitive | value | array | object =>
    exact .of_stored trivial
  | pointer target ih => exact ih x
  | option content ih =>
    cases x with
    | none => exact .of_stored trivial
    | some x => exact ih x
  | slice item ih | vector length item ih | list item ih | deque item ih | set item ih =>
    exact .of_seq trivial ih
  | map key content ihkey ihcontent => exact .of_map trivial ihkey ihcontent

/-- What a slice becomes: a new array of the kind that belongs to the type of its items, and of the
same length.  If it is a kind of primitives, then all items are primitives of this kind. -/
lemma place_slice (t : ArgType) (xs : List (t.Carrier ω)) (store : Store ω) :
    let placed := ((slice t).toDraft xs).place store
    ∃ id values, placed.1 = .ref .array id ∧
      placed.2.get? id = some (.array t.elementKind values) ∧ values.length = xs.length ∧
      ∀ kind, t.elementKind = .primitive kind →
        ∀ v ∈ values, ∃ p, v = .atom (.primitive p) ∧ p.kind = kind := by
  intro placed
  set items := Draft.placeItems store (xs.map t.toDraft) with hitems
  have hstored := Draft.placeItems_stored store (xs.map t.toDraft)
  refine ⟨⟨items.2.next⟩, items.1, rfl, items.2.get?_place _, ?_, fun kind hkind v hv => ?_⟩
  · rw [hitems, ← hstored.length_eq, List.length_map]
  · obtain ⟨draft, hdraft, hsame⟩ := exists_of_mem_right hstored hv
    obtain ⟨x, _, rfl⟩ := List.mem_map.mp hdraft
    obtain ⟨p, hp, hpkind⟩ := toDraft_of_elementKind hkind x
    exact ⟨p, hsame _ hp, hpkind⟩

end ArgType

/-! ## Conversions that come to the same -/

namespace Store

variable {store : Store ω} {reflect : Bool} {id : Identity} {v w : Value ω}

/-- Reflection takes apart whatever is taken apart without it. -/
lemma sight_with_reflection {cell : Cell ω} (h : store.sight reflect v = .composite id cell) :
    store.sight true v = .composite id cell := by
  have hcell := deref?_of_sight h
  obtain ⟨rfl, _⟩ := sight_eq_composite h
  exact sight_true hcell

lemma Contains.with_reflection (h : store.Contains reflect v w) : store.Contains true v w := by
  obtain ⟨other, cell, hsight, hw⟩ := h
  exact ⟨other, cell, sight_with_reflection hsight, hw⟩

lemma OnCycle.with_reflection (h : store.OnCycle reflect id) : store.OnCycle true id := by
  obtain ⟨v, cell, hsight, hcycle⟩ := h
  exact ⟨v, cell, sight_with_reflection hsight,
    Relation.TransGen.mono (fun _ _ hcontains => hcontains.with_reflection) _ _ hcycle⟩

/-- What is realized without tangles lies on no cycles, with or without reflection. -/
lemma Realizes.off_all_cycles {made : Identity → Prop} {draft : Draft ω} {check : Bool}
    (h : store.Realizes made draft v) (hfree : check = true → store.Untangled made v) :
    store.Realizes (fun id => check = true → ¬ store.OnCycle reflect id) draft v :=
  (h.off_cycles hfree).mono fun _ hid =>
    ⟨fun hcheck hcycle => hid hcheck hcycle.with_reflection, rfl⟩

end Store

namespace ArgType

variable [OpaqueValue ω] {a b : ArgType}

/-- Values of two types are converted alike.  Put into one store, they become the same argument, and
the store becomes the same.  If they are converted separately, then calls that differ in this
argument only come to the same, as long as what was made for the two is still there.  With the check
for cycles, nothing that was made may have got inside itself in the meantime. -/
structure ConvertAlike (x : a.Carrier ω) (y : b.Carrier ω) : Prop where
  place_eq : ∀ store, (a.toDraft x).place store = (b.toDraft y).place store
  sameOutcome : ∀ (s r store : Store ω) (c : Config) (signature : Option Signature)
    (before after : List (Value ω)),
    let first := (a.toDraft x).place s
    let second := (b.toDraft y).place r
    let call (v : Value ω) : Invocation ω := ⟨signature, before ++ v :: after⟩
    store.Keeps s first.2 → store.Keeps r second.2 →
    (c.checkForCycles = true → store.Untangled (s.Made first.2) first.1 ∧
      store.Untangled (r.Made second.2) second.1) →
    c.SameOutcome store (call first.1) store (call second.1)

/-- Values with one draft are converted alike. -/
lemma ConvertAlike.of_toDraft_eq {x : a.Carrier ω} {y : b.Carrier ω}
    (h : a.toDraft x = b.toDraft y) : ConvertAlike x y := by
  refine ⟨fun store => by rw [h], ?_⟩
  intro s r store c signature before after first second call hfirst hsecond hfree
  have hleft : store.Realizes (s.Made first.2) (a.toDraft x) first.1 :=
    ((a.toDraft x).realizes_place s).2.mono fun id hid => ⟨hid, hfirst id hid⟩
  have hright : store.Realizes (r.Made second.2) (a.toDraft x) second.1 :=
    h ▸ ((b.toDraft y).realizes_place r).2.mono fun id hid => ⟨hid, hsecond id hid⟩
  have hopen := a.each_toDraft_isOpen x c.useReflection
  refine Config.sameOutcome_of_report_eq (Config.report_eq_of_forall_limit rfl fun limit => ?_)
  apply forall₂_at
  · exact fun _ => rfl
  · exact Store.Realizes.seen_trace_eq_of_isOpen hopen (hleft.off_all_cycles fun h => (hfree h).1)
      (hright.off_all_cycles fun h => (hfree h).2) ⟨rfl, Guard.passes_empty _⟩
      ⟨rfl, Guard.passes_empty _⟩ limit

/-- **Pointers do not show in conversions.**  A value behind any pointers is converted as the value
itself.  An array of values behind pointers, of any length or of a fixed one and behind pointers
itself or not, is converted as the array of what the pointers lead to, which is one of the kind that
belongs to the type of these items even if it is empty.  Unless this type is a pointer once more,
the kind is one of primitives exactly for the scalar types, all items are primitives of this kind,
and all other types have arrays of any values. -/
theorem pointers_do_not_show :
    (∀ (t : ArgType) (n : Nat) (x : (t.behind n).Carrier ω), ConvertAlike x (t.target n x)) ∧
    (∀ (t : ArgType) (n m : Nat),
      (∀ xs : ((slice (t.behind n)).behind m).Carrier ω,
        let items : List ((t.behind n).Carrier ω) := (slice (t.behind n)).target m xs
        ConvertAlike xs (show (slice t).Carrier ω from items.map (t.target n))) ∧
      ∀ (length : Nat) (xs : ((vector length (t.behind n)).behind m).Carrier ω),
        let items : Vector ((t.behind n).Carrier ω) length :=
          (vector length (t.behind n)).target m xs
        ConvertAlike xs (show (slice t).Carrier ω from items.toList.map (t.target n))) ∧
    (∀ (t : ArgType) (xs : List (t.Carrier ω)) (store : Store ω),
      let placed := ((slice t).toDraft xs).place store
      ∃ id values, placed.1 = .ref .array id ∧
        placed.2.get? id = some (.array t.elementKind values) ∧
        values.length = xs.length ∧
        ∀ kind, t.elementKind = .primitive kind →
          ∀ v ∈ values, ∃ p, v = .atom (.primitive p) ∧ p.kind = kind) ∧
    (∀ t : ArgType, (∀ target, t ≠ .pointer target) →
      (∀ kind, t.elementKind = .primitive kind ↔ ∃ s, t = .scalar s ∧ s.kind = kind) ∧
      ((∀ s, t ≠ .scalar s) → t.elementKind = .reference ∧ t.elementKind.name = "value[]")) := by
  refine ⟨?_, fun t n m => ⟨?_, ?_⟩, place_slice, fun t ht => ⟨?_, ?_⟩⟩
  · intro t n x
    exact .of_toDraft_eq (t.toDraft_behind n x)
  · intro xs items
    have hthrough := (slice (t.behind n)).toDraft_behind m xs
    exact .of_toDraft_eq (hthrough.trans (t.toDraft_slice_behind n items))
  · intro length xs items
    have hthrough := (vector length (t.behind n)).toDraft_behind m xs
    exact .of_toDraft_eq (hthrough.trans (t.toDraft_slice_behind n items.toList))
  · exact fun kind => elementKind_eq_primitive_iff ht
  · intro hscalar
    have hkind := elementKind_eq_reference ht hscalar
    exact ⟨hkind, by rw [hkind]; rfl⟩

/-- A box of bytes behind two pointers each, and the bytes themselves: two arrays of 16-bit integers
with one key.  Without bytes it is such an array too, and bytes that may be missing have an array of
any values. -/
theorem pointers_do_not_show_bytes :
    let byte : ArgType := .scalar .nat8
    let box : ArgType := (slice (byte.behind 2)).behind 1
    let bytes : List UInt8 := [200, 7]
    let boxed := (box.toDraft (ω := Datum) bytes).place {}
    let plain := ((slice byte).toDraft bytes).place boxed.2
    let c : Config := Config.argumentsOnly
    let call (v : Value Datum) : Invocation Datum := { arguments := [v] }
    (boxed.1 ≠ plain.1 ∧ plain.2.Keeps {} boxed.2 ∧
      plain.2.Untangled (Store.Made {} boxed.2) boxed.1 ∧
      plain.2.Untangled (boxed.2.Made plain.2) plain.1) ∧
    c.SameOutcome plain.2 (call boxed.1) plain.2 (call plain.1) ∧
    (c.structuralKey plain.2 (call boxed.1) {}).1 =
      .ok ⟨[.seq (.array (.primitive .int16))
        [.atom (.primitive (.int16 200)), .atom (.primitive (.int16 7))]]⟩ ∧
    ((box.toDraft (ω := Datum) ([] : List UInt8)).place {}).2.get? ⟨0⟩ =
      some (.array (.primitive .int16) []) ∧
    byte.elementKind = .primitive .int16 ∧ (option byte).elementKind = .reference := by
  intro byte box bytes boxed plain c call
  obtain ⟨-, harrays, -, hkinds⟩ := pointers_do_not_show (ω := Datum)
  have hkeeps : plain.2.Keeps {} boxed.2 := (Draft.realizes_place _ boxed.2).1.keeps
  have hkeeps' : plain.2.Keeps boxed.2 plain.2 := Store.keeps_self _ _
  have hdata : box.IsData Datum ∧ (slice byte).IsData Datum := ⟨trivial, trivial⟩
  have hboxed := (Draft.realizes_place (box.toDraft (ω := Datum) bytes) {}).2
  have hplain := (Draft.realizes_place ((slice byte).toDraft (ω := Datum) bytes) boxed.2).2
  have hfree : plain.2.Untangled (Store.Made {} boxed.2) boxed.1 :=
    ((hboxed.mono fun id hid => ⟨hid, hkeeps id hid⟩).acyclic_of_plain
      (each_toDraft hdata.1 bytes) true).untangled
  have hfree' : plain.2.Untangled (boxed.2.Made plain.2) plain.1 :=
    (hplain.acyclic_of_plain (each_toDraft hdata.2 bytes) true).untangled
  have halike : ConvertAlike (ω := Datum) (a := box) (b := slice byte) bytes bytes :=
    (harrays byte 2 1).1 bytes
  refine ⟨⟨by decide, hkeeps, hfree, hfree'⟩, ?_, rfl, rfl, ?_, ?_⟩
  · exact halike.sameOutcome {} boxed.2 plain.2 c none [] [] hkeeps hkeeps'
      fun _ => ⟨hfree, hfree'⟩
  · exact ((hkinds byte nofun).1 .int16).mpr ⟨.nat8, rfl, rfl⟩
  · exact ((hkinds (option byte) nofun).2 nofun).1

end ArgType

end MemoKey
