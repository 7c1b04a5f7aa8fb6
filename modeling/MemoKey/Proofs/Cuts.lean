import MemoKey.Opaque.Datum
import MemoKey.Proofs.Lockstep
import MemoKey.Proofs.Termination

/-!
# The check for cycles is exact

A guard must not take a value that is shared for one that contains itself, and must not miss one
that does.  Whether it does either is a question about all ways through an argument graph, because a
composite may be reached on some ways only after others have been cut.

## Where cuts are

A cut leaves a mark in the unfolding.  If there is none, then every way through the graph was gone
to its end without meeting its own path (`Store.exists_path_of_reaches`), so that no composite can
lie on a cycle.  If nothing lies on a cycle, then the path stays clear all the way and nothing is
cut.  `Store.not_holds_cycle_unfold_iff` joins the two.

## Where there are none

`Guard.Passes` says of a guard that it cuts none of the composites below a value.  Over an acyclic
graph every fresh guard does, enabled or not, and walks under two such guards are in step.  So are
walks under guards that cut the same, whether or not there are cycles (`Guard.AgreeOn`).

The main statement is `Config.cycle_check_exact`.
-/

namespace MemoKey

variable {ω : Type}

/-! ## Marks of cuts -/

namespace Store

variable {store : Store ω} {reflect : Bool} {path : List Identity} {v w : Value ω}

/-- Nothing is cut in an acyclic graph below a path that is clear. -/
lemma not_holds_cycle_of_acyclic (hv : store.Acyclic reflect v)
    (hclear : store.Clear reflect path v) : ¬ (store.unfold reflect path v).Holds .cycle := by
  induction hn : (store.composites reflect v).ncard using Nat.strongRecOn
    generalizing v path with
  | _ n ih =>
    cases hsight : store.sight reflect v with
    | atom a => simp [unfold_of_atom hsight]
    | whole x => simp [unfold_of_whole hsight]
    | composite id cell =>
      rw [Node.holds_iff, unfold_of_composite hsight, if_neg (hclear.notMem hsight),
        Cell.parts_toNode]
      rintro (hcycle | ⟨node, hnode, hinside⟩)
      · cases cell <;> simp [Cell.toNode] at hcycle
      · obtain ⟨part, hpart, rfl⟩ := List.mem_map.mp hnode
        have hfewer := hv.ncard_composites_lt hsight hpart
        exact ih _ (hn ▸ hfewer) (hv.of_contains ⟨id, cell, hsight, hpart⟩)
          (hclear.cons hv hsight hpart) rfl hinside

/-- If nothing is cut at a composite, then it is not on the path, and nothing is cut in its parts
with the composite on the path. -/
lemma notMem_of_not_holds_cycle {id : Identity} {cell : Cell ω}
    (hsight : store.sight reflect v = .composite id cell)
    (h : ¬ (store.unfold reflect path v).Holds .cycle) :
    id ∉ path ∧ ∀ part ∈ cell.parts, ¬ (store.unfold reflect (id :: path) part).Holds .cycle := by
  rw [unfold_of_composite hsight, Node.holds_iff, not_or] at h
  have hid : id ∉ path := fun hid => h.1 (if_pos hid)
  rw [if_neg hid, Cell.parts_toNode] at h
  exact ⟨hid, fun part hpart hinside => h.2 ⟨_, List.mem_map_of_mem hpart, hinside⟩⟩

/-- If nothing is cut, every value that can be reached is unfolded somewhere, below a longer path,
and nothing is cut there. -/
lemma exists_path_of_reaches (hreaches : store.Reaches reflect v w)
    (h : ¬ (store.unfold reflect path v).Holds .cycle) :
    ∃ longer, path ⊆ longer ∧ ¬ (store.unfold reflect longer w).Holds .cycle := by
  induction hreaches using Relation.ReflTransGen.head_induction_on generalizing path with
  | refl => exact ⟨path, List.Subset.refl path, h⟩
  | head hcontains _ ih =>
    obtain ⟨id, cell, hsight, hpart⟩ := hcontains
    obtain ⟨_, hparts⟩ := notMem_of_not_holds_cycle hsight h
    obtain ⟨longer, hsubset, hlonger⟩ := ih (hparts _ hpart)
    exact ⟨longer, fun other hother => hsubset (List.mem_cons_of_mem id hother), hlonger⟩

/-- **Cuts are exactly at cycles.**  In the unfolding of a value nothing is cut if and only if
nothing that the value reaches contains itself. -/
theorem not_holds_cycle_unfold_iff :
    ¬ (store.unfold reflect [] v).Holds .cycle ↔ store.Acyclic reflect v := by
  constructor
  · intro h w hreaches hcycle
    obtain ⟨path, _, hpath⟩ := exists_path_of_reaches hreaches h
    obtain ⟨x, ⟨id, cell, hsight, hpart⟩, hback⟩ := Relation.TransGen.head'_iff.mp hcycle
    -- Going round once puts the composite on the path, and nothing is cut on its return.
    obtain ⟨_, hparts⟩ := notMem_of_not_holds_cycle hsight hpath
    obtain ⟨longer, hsubset, hlonger⟩ := exists_path_of_reaches hback (hparts x hpart)
    exact (notMem_of_not_holds_cycle hsight hlonger).1 (hsubset List.mem_cons_self)
  · intro hv
    exact not_holds_cycle_of_acyclic hv clear_nil

/-- A composite lies on a cycle: a reference to it lies somewhere inside itself. -/
def OnCycle (store : Store ω) (reflect : Bool) (id : Identity) : Prop :=
  ∃ v cell, store.sight reflect v = .composite id cell ∧
    Relation.TransGen (store.Contains reflect) v v

lemma acyclic_iff_forall_not_onCycle :
    store.Acyclic reflect v ↔
      ∀ id ∈ store.composites reflect v, ¬ store.OnCycle reflect id := by
  constructor
  · rintro hv id ⟨w, cell, hreaches, hsight⟩ ⟨u, cell', hsight', hcycle⟩
    -- The cycle may go through another reference, which is reached by the same first step.
    obtain ⟨x, hcontains, hback⟩ := Relation.TransGen.head'_iff.mp hcycle
    have hreached : store.Reaches reflect w u :=
      .head (hcontains.of_identity?_eq (identity?_of_sight hsight') hsight) hback
    exact hv u (hreaches.trans hreached) hcycle
  · intro h w hreaches hcycle
    obtain ⟨x, ⟨id, cell, hsight, _⟩, _⟩ := Relation.TransGen.head'_iff.mp hcycle
    exact h id ⟨w, cell, hreaches, hsight⟩ ⟨w, cell, hsight, hcycle⟩

end Store

/-! ## Guards that cut nothing -/

namespace Guard

variable {g g' : Guard} {store : Store ω} {reflect : Bool} {v w : Value ω}

@[simp] lemma enabled_below (g : Guard) (id : Identity) : (g.below id).enabled = g.enabled := by
  unfold below enter
  cases henabled : g.enabled <;> cases g.contains id <;> simp [henabled]

/-- Inside a composite the composite itself is cut, if there are cuts at all, and all that was cut
outside. -/
lemma cuts_below_iff {id other : Identity} :
    (g.below id).cuts other = true ↔ (g.enabled = true ∧ other = id) ∨ g.cuts other = true := by
  unfold below enter cuts
  cases henabled : g.enabled <;> cases hcontains : g.contains id <;> simp_all [contains]

lemma cuts_below {id other : Identity} (h : (g.below id).cuts other = true) :
    other = id ∨ g.cuts other = true :=
  (cuts_below_iff.mp h).imp_left fun h => h.2

/-- A guard cuts none of the composites that can be reached from a value. -/
def Passes (g : Guard) (store : Store ω) (reflect : Bool) (v : Value ω) : Prop :=
  ∀ id ∈ store.composites reflect v, g.cuts id = false

lemma passes_empty (enabled : Bool) : (empty enabled).Passes store reflect v := by
  intro id _
  simp [empty, cuts, contains]

/-- Inside a composite that does not lie on a cycle nothing more is cut. -/
lemma Passes.below_of_not_onCycle (h : g.Passes store reflect v) {id : Identity} {cell : Cell ω}
    (hsight : store.sight reflect v = .composite id cell)
    (hid : g.enabled = true → ¬ store.OnCycle reflect id) (hw : w ∈ cell.parts) :
    (g.below id).Passes store reflect w := by
  intro other hother
  by_contra hcut
  rw [Bool.not_eq_false] at hcut
  have hcontains : store.Contains reflect v w := ⟨id, cell, hsight, hw⟩
  rcases cuts_below_iff.mp hcut with ⟨henabled, rfl⟩ | hg
  · obtain ⟨u, cell', _, hcycle⟩ := Store.exists_cycle_of_mem_composites hsight hw hother
    exact hid henabled ⟨u, cell', hcycle⟩
  · have hreached := Store.composites_subset_of_contains hcontains hother
    simp [h other hreached] at hg

lemma Passes.below (h : g.Passes store reflect v) (hv : store.Acyclic reflect v) {id : Identity}
    {cell : Cell ω} (hsight : store.sight reflect v = .composite id cell) (hw : w ∈ cell.parts) :
    (g.below id).Passes store reflect w := by
  refine h.below_of_not_onCycle hsight (fun _ => ?_) hw
  exact Store.acyclic_iff_forall_not_onCycle.mp hv id (Store.mem_composites_self hsight)

/-- Two guards cut the same of the composites that can be reached from a value. -/
structure AgreeOn (g g' : Guard) (store : Store ω) (reflect : Bool) (v : Value ω) : Prop where
  enabled : g.enabled = g'.enabled
  cuts : ∀ id ∈ store.composites reflect v, g.cuts id = g'.cuts id

lemma Passes.agreeOn (h : g.Passes store reflect v) (h' : g'.Passes store reflect v)
    (henabled : g.enabled = g'.enabled) : g.AgreeOn g' store reflect v :=
  ⟨henabled, fun id hid => (h id hid).trans (h' id hid).symm⟩

lemma AgreeOn.below (h : g.AgreeOn g' store reflect v) (hw : store.Contains reflect v w)
    (id : Identity) : (g.below id).AgreeOn (g'.below id) store reflect w := by
  refine ⟨by simp [h.enabled], fun other hother => ?_⟩
  have hcuts := h.cuts other (Store.composites_subset_of_contains hw hother)
  rw [Bool.eq_iff_iff, cuts_below_iff, cuts_below_iff, h.enabled, hcuts]

end Guard

namespace Walk

/-- Over an acyclic graph walks under any two guards that cut nothing differ in the path only. -/
lemma seen_trace_eq_of_passes {store : Store ω} {reflect : Bool} {v : Value ω} {g g' : Guard}
    (hv : store.Acyclic reflect v) (hg : g.Passes store reflect v)
    (hg' : g'.Passes store reflect v) (limit : Nat) :
    (trace store reflect limit g v).seen Act.offPath =
      (trace store reflect limit g' v).seen Act.offPath := by
  let R (g : Guard) (v : Value ω) (g' : Guard) (w : Value ω) : Prop :=
    v = w ∧ store.Acyclic reflect v ∧ g.Passes store reflect v ∧ g'.Passes store reflect v
  refine seen_trace_eq (R := R) Act.pathBlind_offPath ?_ limit ⟨rfl, hv, hg, hg'⟩
  rintro g v g' w ⟨rfl, hv, hg, hg'⟩
  cases hsight : store.sight reflect v with
  | atom a => exact .atom hsight hsight
  | whole x => exact .whole hsight hsight
  | composite id cell =>
    have hid : id ∈ store.composites reflect v := Store.mem_composites_self hsight
    refine .inside hsight (hg id hid) hsight (hg' id hid) rfl ?_
    refine Cell.matches_self fun part hpart => ?_
    exact ⟨rfl, hv.of_contains ⟨id, cell, hsight, hpart⟩, hg.below hv hsight hpart,
      hg'.below hv hsight hpart⟩

/-- Walks over one value under guards that agree on all below it differ in the path only. -/
lemma seen_trace_eq_of_agreeOn {β : Type} {see : Act ω → Option β} (hblind : Act.PathBlind see)
    {store : Store ω} {reflect : Bool} {v : Value ω} {g g' : Guard}
    (h : g.AgreeOn g' store reflect v) (limit : Nat) :
    (trace store reflect limit g v).seen see = (trace store reflect limit g' v).seen see := by
  let R (g : Guard) (v : Value ω) (g' : Guard) (w : Value ω) : Prop :=
    v = w ∧ g.AgreeOn g' store reflect v
  refine seen_trace_eq (R := R) hblind ?_ limit ⟨rfl, h⟩
  rintro g v g' w ⟨rfl, h⟩
  cases hsight : store.sight reflect v with
  | atom a => exact .atom hsight hsight
  | whole x => exact .whole hsight hsight
  | composite id cell =>
    have hcuts : g.cuts id = g'.cuts id := h.cuts id (Store.mem_composites_self hsight)
    cases hcut : g.cuts id with
    | true => exact .cut hsight hcut hsight (hcuts ▸ hcut)
    | false =>
      refine .inside hsight hcut hsight (hcuts ▸ hcut) rfl (Cell.matches_self fun part hpart => ?_)
      exact ⟨rfl, h.below ⟨id, cell, hsight, hpart⟩ id⟩

end Walk

/-! ## Calls -/

namespace Config

/-- Some composite that an argument reaches, and that a walk goes into, lies on a cycle. -/
def MeetsCycle (c : Config) (store : Store ω) (call : Invocation ω) : Prop :=
  ∃ v ∈ call.arguments, ∃ id ∈ store.composites c.useReflection v, store.OnCycle c.useReflection id

lemma not_meetsCycle_iff {c : Config} {store : Store ω} {call : Invocation ω} :
    ¬ c.MeetsCycle store call ↔ ∀ v ∈ call.arguments, store.Acyclic c.useReflection v := by
  simp only [MeetsCycle, Store.acyclic_iff_forall_not_onCycle, not_exists, not_and]

/-- The parts of a signature are never cut. -/
lemma not_holds_cycle_of_mem_prefixNodes {c : Config} {signature : Option Signature}
    {node : Node ω} (h : node ∈ c.prefixNodes signature) : ¬ node.Holds .cycle := by
  have htypes (ts : List TypeName) :
      ¬ (.seq .list (ts.map fun t => .atom (.type t)) : Node ω).Holds .cycle := by
    rw [Node.holds_iff, not_or]
    refine ⟨nofun, ?_⟩
    rintro ⟨part, hpart, hinside⟩
    obtain ⟨t, _, rfl⟩ := List.mem_map.mp hpart
    simp at hinside
  cases signature with
  | none => simp [prefixNodes] at h
  | some s =>
    simp only [prefixNodes, List.mem_append] at h
    rcases h with (h | h) | h
    · split at h <;> simp_all
    · split at h <;> simp_all
    · split at h
      · rw [List.mem_singleton.mp h]
        exact htypes s.parameterTypes
      · simp at h

variable [OpaqueValue ω]

/-- **The check for cycles is exact, and invisible where there is nothing to cut.**  A guarded
structural key contains the mark of a cut if and only if some composite that an argument reaches
lies on a cycle.  If none does, then the call without the check makes the same structural key and
the same hash key, and leaves the same counters and layouts behind. -/
theorem cycle_check_exact {c : Config} (hcheck : c.checkForCycles = true) (store : Store ω)
    (call : Invocation ω) (session : Session) :
    (∀ key, (c.structuralKey store call session).1 = .ok key →
      ((∃ node ∈ key.nodes, node.Holds .cycle) ↔ c.MeetsCycle store call)) ∧
    (¬ c.MeetsCycle store call →
      ({ c with checkForCycles := false }).structuralKey store call session =
        c.structuralKey store call session ∧
      ({ c with checkForCycles := false }).hashKey store call session =
        c.hashKey store call session) := by
  constructor
  · intro key hkey
    rw [(structuralKey_eq_ok hkey).2, nodes_eq_unfold hcheck]
    rw [← not_iff_not, not_meetsCycle_iff]
    constructor
    · intro h v hv
      refine Store.not_holds_cycle_unfold_iff.mp fun hcut => h ⟨_, ?_, hcut⟩
      exact List.mem_append_right _ (List.mem_map_of_mem hv)
    · rintro hacyclic ⟨node, hnode, hcut⟩
      rcases List.mem_append.mp hnode with hhead | hargument
      · exact not_holds_cycle_of_mem_prefixNodes hhead hcut
      · obtain ⟨v, hv, rfl⟩ := List.mem_map.mp hargument
        exact Store.not_holds_cycle_unfold_iff.mpr (hacyclic v hv) hcut
  · intro hnone
    rw [not_meetsCycle_iff] at hnone
    have htrace :
        (({ c with checkForCycles := false } : Config).trace store call).seen Act.offPath =
          (c.trace store call).seen Act.offPath := by
      refine Trace.seen_all_congr (List.forall₂_same.mpr fun v hv => ?_)
      exact Walk.seen_trace_eq_of_passes (hnone v hv) (Guard.passes_empty false)
        (Guard.passes_empty c.checkForCycles) store.size
    have hevents : ({ c with checkForCycles := false } : Config).events store call session =
        c.events store call session := events_congr (by rfl) htrace session
    exact ⟨congrArg _ hevents, congrArg _ hevents⟩

/-- The collection that holds itself has a cut in its key and lies on a cycle.  The map that holds
one list twice does not, and its call is the same without the check. -/
theorem cycle_check_exact_knot_shelf :
    let c : Config := { argumentsOnly with useReflection := true }
    let off : Config := { c with checkForCycles := false }
    let knot : Invocation Datum := { arguments := [.ref .map ⟨1⟩] }
    let shelf : Invocation Datum := { arguments := [.ref .map ⟨2⟩] }
    let key : StructuralKey Datum := ⟨[.map [(.seq .list [.cycle, .cycle], .atom .null)]]⟩
    c.checkForCycles = true ∧
      (c.structuralKey Store.knot knot {}).1 = .ok key ∧
      (∃ node ∈ key.nodes, node.Holds .cycle) ∧ c.MeetsCycle Store.knot knot ∧
      ¬ c.MeetsCycle Store.shelf shelf ∧
      off.structuralKey Store.shelf shelf {} = c.structuralKey Store.shelf shelf {} ∧
      off.hashKey Store.shelf shelf {} = c.hashKey Store.shelf shelf {} := by
  intro c off knot shelf key
  have hcheck : c.checkForCycles = true := rfl
  have hkey : (c.structuralKey Store.knot knot {}).1 = .ok key := rfl
  have hcut : ∃ node ∈ key.nodes, node.Holds .cycle := by
    refine ⟨_, List.mem_singleton_self _, ?_⟩
    have hitem : (.seq .list [.cycle, .cycle] : Node Datum).Holds .cycle :=
      .single (by simp [Node.parts])
    exact .head (by simp [Node.parts]) hitem
  have hnone : ¬ c.MeetsCycle Store.shelf shelf :=
    not_meetsCycle_iff.mpr fun v _ => Store.descending_shelf.acyclic v
  obtain ⟨hexact, _⟩ := cycle_check_exact hcheck Store.knot knot {}
  obtain ⟨_, hinvisible⟩ := cycle_check_exact hcheck Store.shelf shelf {}
  exact ⟨hcheck, hkey, hcut, (hexact key hkey).mp hcut, hnone, hinvisible hnone⟩

end Config

end MemoKey
