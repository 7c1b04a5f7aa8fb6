import MemoKey.Opaque.Datum
import MemoKey.Proofs.Placement
import MemoKey.Proofs.Twins

/-!
# Snapshots read like their sources

A snapshot looks a slot up in a table of its own, and a struct that is held by value is a snapshot
with an identity of its own whenever it is read.  Nothing of this shows: a snapshot is taken apart
as its source is, and an argument has the same keys whether the struct was shared or converted.

## Reading

`Object.snapshot_snapshot` says that a snapshot of a snapshot is the same, and
`Session.extract_snapshot` that a snapshot is taken apart as its source is, faults included.  What a
derived struct converts to is its snapshot (`Derive.Lineage.place_toDraft`).

## Walking

The object and the snapshot realize one draft, with composites of their own.  Two walks over values
that realize one draft see the same until they come to a value that the draft holds.  Both are at
the same value then, but on different paths.  As long as none of the composites on the paths lies on
a cycle (`Store.Untangled`), neither path is ever met again, and the walks go on alike
(`Store.Realizes.seen_trace_eq`).

The main statement is `Derive.Instance.reads_like_source`.
-/

namespace MemoKey

variable {ω : Type}

/-! ## Reading -/

namespace Object

/-- Outside of the layout a snapshot holds nothing. -/
lemma read_snapshot_of_notMem {o : Object ω} {slot : Slot} (h : slot ∉ o.type.layout) :
    o.snapshot.read slot = none := by
  have hlookup : (o.type.layout.map fun slot => (slot, o.read slot)).lookup slot = none := by
    rw [List.lookup_eq_none_iff]
    rintro _ hentry
    obtain ⟨other, hother, rfl⟩ := List.mem_map.mp hentry
    exact bne_iff_ne.mpr fun hsame : slot = other => h (hsame ▸ hother)
  exact congrArg Option.join hlookup

/-- A snapshot holds what its source held, and the slots that could not be read cannot be read. -/
lemma readAll_snapshot (o : Object ω) :
    o.snapshot.readAll o.type.layout = o.readAll o.type.layout := by
  have hread (slot : Slot) (hslot : slot ∈ o.type.layout) : o.snapshot.read slot = o.read slot :=
    read_snapshot hslot
  have hfind : o.type.layout.find? (fun slot => (o.snapshot.read slot).isNone) =
      o.type.layout.find? fun slot => (o.read slot).isNone :=
    List.find?_congr fun slot hslot => by rw [hread slot hslot]
  have hvalues : o.type.layout.map (fun slot => (o.snapshot.read slot).getD .null) =
      o.type.layout.map fun slot => (o.read slot).getD .null :=
    List.map_congr_left fun slot hslot => by rw [hread slot hslot]
  rw [readAll_eq, readAll_eq, hfind, hvalues]

/-- Taking a snapshot of a snapshot changes nothing, not even outside of the layout. -/
theorem snapshot_snapshot (o : Object ω) : o.snapshot.snapshot = o.snapshot := by
  have hread (slot : Slot) : o.snapshot.snapshot.read slot = o.snapshot.read slot := by
    by_cases hslot : slot ∈ o.type.layout
    · exact read_snapshot (o := o.snapshot) hslot
    · rw [read_snapshot_of_notMem (o := o.snapshot) hslot, read_snapshot_of_notMem hslot]
  exact congrArg (Object.mk o.type) (funext hread)

end Object

/-- A snapshot is taken apart as its source is: the same name, the same slots and the same values,
or the same fault. -/
theorem Session.extract_snapshot (s : Session) (o : Object ω) :
    s.extract o.snapshot = s.extract o := by
  have htype : o.snapshot.type = o.type := rfl
  simp only [extract, htype, layout_fst, o.readAll_snapshot]

lemma Draft.placeFields_stored {ι : Type} (store : Store ω) (slot : ι → Slot) (value : ι → Value ω)
    (xs : List ι) :
    placeFields store (xs.map fun x => (slot x, .stored (value x))) =
      (xs.map fun x => (slot x, value x), store) := by
  induction xs with
  | nil => rfl
  | cons x rest ih => simp only [List.map_cons, placeFields, place, ih]

/-- **Converting is taking a snapshot.**  A value of a derived struct whose contents exist already
is converted to the snapshot of itself as an object. -/
theorem Derive.Lineage.place_toDraft {α : Type} (x : Lineage α) (convert : α → Value ω)
    (store : Store ω) :
    (x.toInstance fun a => .stored (convert a)).toDraft.place store =
      store.place (.object (x.toInstance convert).object.snapshot) := by
  have hinfo : (x.toInstance fun a => Draft.stored (convert a)).info = x.info :=
    x.info_toInstance _
  have hfields : (x.info.layout.filterMap fun slot =>
        ((x.toInstance fun a => Draft.stored (convert a)).read slot).map fun d => (slot, d)) =
      x.listed.map fun f => (f.1, .stored (convert f.2)) := by
    rw [layout_info, List.filterMap_map, List.filterMap_eq_map_iff_forall_eq_some]
    intro f hf
    simp [x.read_toInstance (fun a => Draft.stored (convert a)) hf]
  have hcaptured : (x.info.layout.map fun slot => (slot, (x.toInstance convert).read slot)) =
      x.listed.map fun f => (f.1, some (convert f.2)) := by
    rw [layout_info, List.map_map]
    exact List.map_congr_left fun f hf => congrArg (Prod.mk f.1) (x.read_toInstance convert hf)
  have hjoin (slot : Slot) (fields : List (Slot × α)) :
      ((fields.map fun f => (f.1, some (convert f.2))).lookup slot).join =
        (fields.map fun f => (f.1, convert f.2)).lookup slot := by
    induction fields with
    | nil => rfl
    | cons f rest ih =>
      rw [List.map_cons, List.map_cons, List.lookup_cons, List.lookup_cons]
      cases slot == f.1 with
      | true => rfl
      | false => exact ih
  rw [Instance.toDraft, hinfo, hfields, Draft.place, Draft.placeFields_stored, Object.snapshot]
  simp only [Instance.object, x.info_toInstance, hcaptured, hjoin]

/-! ## Walking -/

/-- A walk takes apart what is made of the draft.  Without reflection it keeps objects whole. -/
def Draft.IsOpen (reflect : Bool) : Draft ω → Prop
  | object _ _ => reflect = true
  | _ => True

lemma Draft.isOpen_of_reflect (draft : Draft ω) : draft.IsOpen true := by
  cases draft with
  | stored | seq | map => trivial
  | object => rfl

namespace Store

/-- Nothing that was made for a value, and that the value still leads to, is inside itself. -/
def Untangled (store : Store ω) (made : Identity → Prop) (v : Value ω) : Prop :=
  ∀ id, made id → id ∈ store.composites true v → ¬ store.OnCycle true id

lemma Acyclic.untangled {store : Store ω} {made : Identity → Prop} {v : Value ω}
    (hv : store.Acyclic true v) : store.Untangled made v :=
  fun id _ hid => acyclic_iff_forall_not_onCycle.mp hv id hid

namespace Realizes

variable {store : Store ω} {made : Identity → Prop} {draft : Draft ω} {v w : Value ω}

/-- What is realized without tangles is realized with composites that do not lie on cycles. -/
lemma off_cycles {check : Bool} (h : store.Realizes made draft v)
    (hfree : check = true → store.Untangled made v) :
    store.Realizes (fun id => check = true → ¬ store.OnCycle true id) draft v := by
  induction draft using Draft.partsInduction generalizing v with
  | step draft ih =>
    cases h with
    | stored v => exact .stored v
    | @composite _ shape id cell hid hcell hheading hmembers =>
      have hsight := sight_true hcell
      refine .composite (fun hcheck => hfree hcheck id hid (mem_composites_self hsight)) hcell
        hheading (SameResult.forall₂_imp hmembers fun part hpart w hw hrealizes => ?_)
      have hcontains : store.Contains true (.ref shape id) w :=
        ⟨id, cell, hsight, Cell.ok_mem_members hw⟩
      exact ih part (Draft.mem_parts_of_ok_mem_members hpart) hrealizes fun hcheck other hother
        hreached => hfree hcheck other hother (composites_subset_of_contains hcontains hreached)

/-- What a walk takes apart is under the identity that leads to it. -/
lemma sight_eq_of_isOpen {reflect : Bool} {shape : Shape} {id : Identity} {cell : Cell ω}
    (hcell : store.deref? (.ref shape id) = some cell)
    (hheading : draft.heading? = some cell.heading) (hopen : draft.IsOpen reflect) :
    store.sight reflect (.ref shape id) = .composite id cell := by
  have hshown : (cell.isObject && !reflect) = false := by
    cases cell with
    | seq | map => rfl
    | object o =>
      cases draft with
      | stored | seq | map => simp [Draft.heading?, Cell.heading] at hheading
      | object type fields => simp [show reflect = true from hopen]
  rw [sight, hcell]
  simp [hshown]

/-- Walks over values that realize one draft look the same, with or without reflection, if they take
apart whatever the draft is made of. -/
theorem seen_trace_eq_of_isOpen {reflect check : Bool} {g g' : Guard}
    (hopen : draft.Each fun part => part.IsOpen reflect)
    (hv : store.Realizes (fun id => check = true → ¬ store.OnCycle reflect id) draft v)
    (hw : store.Realizes (fun id => check = true → ¬ store.OnCycle reflect id) draft w)
    (hg : g.enabled = check ∧ g.Passes store reflect v)
    (hg' : g'.enabled = check ∧ g'.Passes store reflect w) (limit : Nat) :
    (Walk.trace store reflect limit g v).seen Act.event? =
      (Walk.trace store reflect limit g' w).seen Act.event? := by
  induction hopen generalizing v w g g' limit with
  | @intro draft hself _ ih =>
    cases hv with
    | stored v =>
      cases hw with
      | stored =>
        -- One value from here on: only the paths differ, and no walk meets them again.
        have hagree := hg.2.agreeOn hg'.2 (hg.1.trans hg'.1.symm)
        exact Walk.seen_trace_eq_of_agreeOn Act.pathBlind_event? hagree limit
      | composite _ _ hheading => cases hheading
    | @composite _ _ id cell hid hcell hheading hmembers =>
      cases hw with
      | stored => cases hheading
      | @composite _ _ other cell' hother hcell' hheading' hmembers' =>
        have hsight := sight_eq_of_isOpen hcell hheading hself
        have hsight' := sight_eq_of_isOpen hcell' hheading' hself
        have hcells : cell.Matches (fun a b => ∃ part, .ok part ∈ draft.members ∧ _ ∧ _) cell' :=
          ⟨Option.some.inj (hheading.symm.trans hheading'),
            SameResult.forall₂_join hmembers hmembers'⟩
        have hrequest : cell.type?.bind (fun info => Act.event? (.request info : Act ω)) =
            cell'.type?.bind fun info => Act.event? (.request info : Act ω) := by
          simp [Act.event?]
        refine Walk.seen_trace_eq_of_inside Act.pathBlind_event? hsight
          (hg.2 id (mem_composites_self hsight)) hsight' (hg'.2 other (mem_composites_self hsight'))
          hrequest (hcells.mono ?_)
        rintro a ha b hb ⟨part, hpart, hrealizes, hrealizes'⟩ below _
        refine ih part (Draft.mem_parts_of_ok_mem_members hpart) hrealizes hrealizes' ?_ ?_ below
        · exact ⟨by simp [hg.1], hg.2.below_of_not_onCycle hsight (hg.1 ▸ hid) ha⟩
        · exact ⟨by simp [hg'.1], hg'.2.below_of_not_onCycle hsight' (hg'.1 ▸ hother) hb⟩

/-- **Walks over values that realize one draft look the same.**  What lies on the paths of the two
walks is cut in neither of them, and nothing that was made for the draft lies on a cycle. -/
theorem seen_trace_eq {check : Bool} {g g' : Guard}
    (hv : store.Realizes (fun id => check = true → ¬ store.OnCycle true id) draft v)
    (hw : store.Realizes (fun id => check = true → ¬ store.OnCycle true id) draft w)
    (hg : g.enabled = check ∧ g.Passes store true v)
    (hg' : g'.enabled = check ∧ g'.Passes store true w) (limit : Nat) :
    (Walk.trace store true limit g v).seen Act.event? =
      (Walk.trace store true limit g' w).seen Act.event? :=
  seen_trace_eq_of_isOpen (.of_forall Draft.isOpen_of_reflect) hv hw hg hg' limit

end Realizes

end Store

/-! ## Arguments -/

namespace Derive.Instance

/-- **A snapshot reads like its source, and a value of a derived struct has the same keys whether it
is shared or converted.**

A snapshot of any object is taken apart as the object is, in every session and faults included, and
a snapshot of a snapshot is the same.  A value of a derived struct may become an argument in two
ways: as an object of its own, or converted at once with everything that it holds by value.  Calls
that differ in this only come to the same under reflection, as long as what was made for the two
arguments is still there.  With the check for cycles, nothing that was made may have got inside
itself in the meantime. -/
theorem reads_like_source [OpaqueValue ω] :
    (∀ (s : Session) (o : Object ω),
      s.extract o.snapshot = s.extract o ∧ o.snapshot.snapshot = o.snapshot) ∧
    ∀ (x : Instance (Draft ω)) (s r store : Store ω) (c : Config) (signature : Option Signature)
      (before after : List (Value ω)),
      let shared := x.share s
      let converted := x.toDraft.place r
      let call (v : Value ω) : Invocation ω := ⟨signature, before ++ v :: after⟩
      c.useReflection = true → store.Keeps s shared.2 → store.Keeps r converted.2 →
      (c.checkForCycles = true → store.Untangled (s.Made shared.2) shared.1 ∧
        store.Untangled (r.Made converted.2) converted.1) →
      c.SameOutcome store (call shared.1) store (call converted.1) := by
  refine ⟨fun s o => ⟨s.extract_snapshot o, o.snapshot_snapshot⟩, ?_⟩
  intro x s r store c signature before after shared converted call hreflect hshared hconverted hfree
  have hleft : store.Realizes (s.Made shared.2) x.toDraft shared.1 :=
    (x.realizes_share s).2.mono fun id hid => ⟨hid, hshared id hid⟩
  have hright : store.Realizes (r.Made converted.2) x.toDraft converted.1 :=
    (x.toDraft.realizes_place r).2.mono fun id hid => ⟨hid, hconverted id hid⟩
  refine Config.sameOutcome_of_report_eq (Config.report_eq_of_forall_limit rfl fun limit => ?_)
  rw [hreflect]
  apply forall₂_at
  · exact fun _ => rfl
  · exact (hleft.off_cycles fun h => (hfree h).1).seen_trace_eq
      (hright.off_cycles fun h => (hfree h).2) ⟨rfl, Guard.passes_empty _⟩
      ⟨rfl, Guard.passes_empty _⟩ limit

lemma hasParent_link : Declaration.link.hasParent = false := by
  rfl

/-- A link to an account that it holds by value. -/
def linkToAccount : Instance (Draft ω) :=
  let account : Draft ω := ((Lineage.account 0).toInstance fun a => .stored (.atom a)).toDraft
  (Lineage.root .link hasParent_link fun m =>
    if m.label = "label" then .stored (.atom (.text "tail")) else account).toInstance id

/-- The link holds nothing that leads anywhere. -/
lemma each_toDraft_linkToAccount {P : Draft ω → Prop} (hatom : ∀ a, P (.stored (.atom a)))
    (hobject : ∀ type fields, P (.object type fields)) :
    (linkToAccount : Instance (Draft ω)).toDraft.Each P := by
  have hparts : (linkToAccount : Instance (Draft ω)).toDraft.parts =
      [.stored (.atom (.text "tail")),
        ((Lineage.account 0).toInstance fun a => .stored (.atom a)).toDraft] := rfl
  have haccount : ((Lineage.account 0).toInstance fun a =>
        (.stored (.atom a) : Draft ω)).toDraft.parts =
      [.stored (.atom (.text "ada")), .stored (.atom (.primitive (.int64 7)))] := rfl
  have hleaf (a : Atom) : (Draft.stored (.atom a) : Draft ω).Each P := .intro (hatom a) nofun
  refine .intro (hobject _ _) ?_
  rw [hparts]
  refine List.forall_mem_cons.mpr ⟨hleaf _, List.forall_mem_singleton.mpr (.intro (hobject _ _) ?_)⟩
  rw [haccount]
  exact List.forall_mem_cons.mpr ⟨hleaf _, List.forall_mem_singleton.mpr (hleaf _)⟩

/-- The link is shared, converted into the same store, and has one key either way. -/
theorem reads_like_source_link :
    let x : Instance (Draft Datum) := linkToAccount
    let shared := x.share {}
    let converted := x.toDraft.place shared.2
    let c : Config := { Config.argumentsOnly with useReflection := true }
    let call (v : Value Datum) : Invocation Datum := { arguments := [v] }
    (shared.1 ≠ converted.1 ∧ converted.2.Keeps {} shared.2 ∧
      converted.2.Untangled (Store.Made {} shared.2) shared.1 ∧
      converted.2.Untangled (shared.2.Made converted.2) converted.1) ∧
    c.SameOutcome converted.2 (call shared.1) converted.2 (call converted.1) ∧
    (c.structuralKey converted.2 (call converted.1) {}).1 =
      .ok ⟨[.object ⟨"shop::Link"⟩ [("label", .atom (.text "tail")),
        ("next", .object ⟨"shop::Account"⟩ [("id", .atom (.text "ada")),
          ("id", .atom (.primitive (.int64 7)))])]]⟩ := by
  intro x shared converted c call
  have hshared := x.realizes_share {}
  have hconverted := x.toDraft.realizes_place shared.2
  have hkeeps : converted.2.Keeps {} shared.2 := hconverted.1.keeps
  have hkeeps' : converted.2.Keeps shared.2 converted.2 := Store.keeps_self _ _
  have hheld : x.toDraft.Each fun part =>
      ∀ u, part = .stored u → converted.2.Acyclic true u := by
    refine each_toDraft_linkToAccount ?_ fun _ _ => nofun
    rintro a u ⟨⟩
    exact Store.acyclic_atom _ _ a
  have hfree : converted.2.Untangled (Store.Made {} shared.2) shared.1 :=
    ((hshared.2.of_extends hconverted.1).acyclic hheld).untangled
  have hfree' : converted.2.Untangled (shared.2.Made converted.2) converted.1 :=
    (hconverted.2.acyclic hheld).untangled
  refine ⟨⟨by decide, hkeeps, hfree, hfree'⟩, ?_, rfl⟩
  exact reads_like_source.2 x {} shared.2 converted.2 c none [] [] rfl hkeeps hkeeps'
    fun _ => ⟨hfree, hfree'⟩

end Derive.Instance

end MemoKey
