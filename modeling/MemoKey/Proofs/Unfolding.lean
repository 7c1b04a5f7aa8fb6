import MemoKey.Proofs.NodeEvents
import MemoKey.Proofs.Trace

/-!
# The unfolding of an argument graph

A structural key holds its arguments as trees.  The tree of a value is read off the argument graph
by going into every composite that is not on the way already, and cutting the others.

* `Store.unfold` is this tree.  It has no bound: it ends because each step down takes an identity
  off `Store.unvisited`.
* `Walk.tree` is the tree that a walk describes, with the bound of the walk and any guard, and
  `Walk.reports_trace` says that a walk reports the events of its tree, or the first of them if it
  halts.
* `Walk.tree_eq_unfold` joins the two for a guarded walk, and `Walk.tree_eq_unfold_of_acyclic` for
  an unguarded one over an acyclic graph.

The main statement is `Config.nodes_structuralKey`: the nodes of a guarded structural key are the
parts of the signature that it includes, followed by the unfolding of each argument.
-/

namespace MemoKey

variable {ω : Type}

/-! ## From cells to nodes -/

namespace Cell

/-- The node of a composite, given the nodes of its parts. -/
def toNode (f : Value ω → Node ω) : Cell ω → Node ω
  | .seq sequence items => .seq sequence (items.map f)
  | .map entries => .map (entries.map fun e => (f e.1, f e.2))
  | .object o =>
    .object o.type.name (o.type.layout.map fun slot => (slot.name, f ((o.read slot).getD .null)))

variable {cell : Cell ω}

@[simp] lemma parts_toNode (f : Value ω → Node ω) (cell : Cell ω) :
    (cell.toNode f).parts = cell.parts.map f := by
  cases cell with
  | seq sequence items => rfl
  | map entries => simp [toNode, Node.parts, parts, List.flatMap_map, List.map_flatMap]
  | object o => simp [toNode, Node.parts, parts, Object.parts, Function.comp_def]

lemma toNode_congr {f f' : Value ω → Node ω} (h : ∀ v ∈ cell.parts, f v = f' v) :
    cell.toNode f = cell.toNode f' := by
  cases cell with
  | seq sequence items => exact congrArg _ (List.map_congr_left h)
  | map entries =>
    refine congrArg _ (List.map_congr_left fun e he => ?_)
    rw [h e.1 (fst_mem_parts he), h e.2 (snd_mem_parts he)]
  | object o =>
    refine congrArg _ (List.map_congr_left fun slot hslot => ?_)
    rw [h _ (List.mem_map_of_mem hslot)]

end Cell

/-! ## The two trees of a value -/

/-- The unfolding of a value below a path of identities: a composite on the path is cut, any other
is unfolded with its own identity on the path. -/
def Store.unfold (store : Store ω) (reflect : Bool) (path : List Identity) (v : Value ω) : Node ω :=
  match _hsight : store.sight reflect v with
  | .atom value => .atom value
  | .whole value => .whole value
  | .composite id cell =>
    if _hid : id ∈ path then .cycle
    else cell.toNode fun part => store.unfold reflect (id :: path) part
termination_by (store.unvisited path).card
decreasing_by exact card_unvisited_cons_lt _hsight _hid

namespace Store

variable {store : Store ω} {reflect : Bool} {path : List Identity} {v : Value ω}

lemma unfold_of_atom {value : Atom} (h : store.sight reflect v = .atom value) :
    store.unfold reflect path v = .atom value := by
  rw [unfold]
  split <;> simp_all

lemma unfold_of_whole {value : Whole ω} (h : store.sight reflect v = .whole value) :
    store.unfold reflect path v = .whole value := by
  rw [unfold]
  split <;> simp_all

lemma unfold_of_composite {id : Identity} {cell : Cell ω}
    (h : store.sight reflect v = .composite id cell) :
    store.unfold reflect path v =
      if id ∈ path then .cycle else cell.toNode (store.unfold reflect (id :: path)) := by
  rw [unfold]
  split <;> simp_all

end Store

/-- The tree that a walk describes.  What lies below the bound is left open. -/
def Walk.tree (store : Store ω) (reflect : Bool) (limit : Nat) (g : Guard) (v : Value ω) : Node ω :=
  match store.sight reflect v with
  | .atom value => .atom value
  | .whole value => .whole value
  | .composite id cell =>
    if g.cuts id then .cycle
    else
      match limit with
      | 0 => .cycle
      | limit + 1 => cell.toNode (tree store reflect limit (g.below id))

/-! ## A walk reports its tree -/

namespace Trace

/-- A trace reports the given events, or only the first of them if it halts. -/
def Reports (t : Trace ω) (events : List (Event ω)) : Prop :=
  t.events <+: events ∧ (t.halt = none → t.events = events)

section

variable {t u : Trace ω} {xs ys : List (Event ω)}

lemma reports_report (event : Event ω) : (report event).Reports [event] :=
  ⟨by simp, fun _ => by simp⟩

lemma reports_halting (halt : Halt) (events : List (Event ω)) :
    (halting halt).Reports events :=
  ⟨List.nil_prefix, fun h => by simp [halting] at h⟩

lemma Reports.append (ht : t.Reports xs) (hu : u.Reports ys) : (t ++ u).Reports (xs ++ ys) := by
  cases h : t.halt with
  | none =>
    rw [Reports, events_append h, ht.2 h, List.prefix_append_right_inj, List.append_cancel_left_eq,
      halt_append, h]
    exact hu
  | some halt =>
    rw [append_of_halt_eq_some h]
    refine ⟨ht.1.trans (List.prefix_append xs ys), fun hnone => ?_⟩
    simp [h] at hnone

lemma reports_all {α : Type} {f : α → Trace ω} {F : α → List (Event ω)} {xs : List α}
    (h : ∀ x ∈ xs, (f x).Reports (F x)) : (all f xs).Reports (xs.flatMap F) := by
  induction xs with
  | nil => exact ⟨List.prefix_rfl, fun _ => rfl⟩
  | cons x rest ih =>
    obtain ⟨hx, hrest⟩ := List.forall_mem_cons.mp h
    exact hx.append (ih hrest)

lemma reports_descend {g : Guard} {id : Identity} (hcut : g.cuts id = false)
    {body : Guard → Trace ω} (h : (body (g.below id)).Reports xs) :
    (descend g id body).Reports xs := by
  have hcut' : ¬ g.cuts id = true := by simp [hcut]
  rw [Reports, events_descend, halt_descend, if_neg hcut', if_neg hcut']
  exact h

end

end Trace

/-- A composite reports the events of its node as soon as its parts report those of theirs. -/
lemma Cell.reports_trace {t : Value ω → Trace ω} {f : Value ω → Node ω} {cell : Cell ω}
    (h : ∀ v ∈ cell.parts, (t v).Reports (f v).events) :
    (cell.trace t).Reports (cell.toNode f).events := by
  have hopens (composite : Composite) := Trace.reports_report (.opens composite : Event ω)
  have hcloses := Trace.reports_report (.closes : Event ω)
  cases cell with
  | seq sequence items =>
    have hitems : (Trace.all t items).Reports (items.flatMap fun v => (f v).events) :=
      Trace.reports_all h
    rw [toNode, Node.events, Node.itemEvents_eq, List.flatMap_map]
    exact (hopens _).append (hitems.append hcloses)
  | map entries =>
    rw [toNode, Node.events, Node.entryEvents_eq, List.flatMap_map]
    refine (hopens .map).append ((Trace.reports_all fun e he => ?_).append hcloses)
    have hkey := h e.1 (fst_mem_parts he)
    have hvalue := h e.2 (snd_mem_parts he)
    rw [List.append_assoc]
    exact (hopens .entry).append (hkey.append (hvalue.append hcloses))
  | object o =>
    rw [trace, ← List.nil_append (Node.events _)]
    refine Trace.Reports.append ⟨List.prefix_rfl, fun _ => rfl⟩ ?_
    cases hread : o.readAll o.type.layout with
    | error fault => exact Trace.reports_halting _ _
    | ok values =>
      have hparts : (Cell.object o).parts = values := (Object.eq_of_readAll_eq_ok hread).symm
      have hvalues : (Trace.all t values).Reports (values.flatMap fun v => (f v).events) :=
        Trace.reports_all (hparts ▸ h)
      have hnode : ((Cell.object o).toNode f).events =
          .opens (.object o.type.name (o.type.layout.map (·.name))) ::
            (values.flatMap (fun v => (f v).events) ++ [.closes]) := by
        simp [toNode, Node.events, Node.fieldEvents_eq, ← hparts, parts, Object.parts,
          List.flatMap_map, Function.comp_def]
      rw [hnode]
      exact (hopens _).append (hvalues.append hcloses)

namespace Walk

/-- A walk reports the events of its tree, all of them unless it halts. -/
theorem reports_trace (store : Store ω) (reflect : Bool) (limit : Nat) (g : Guard) (v : Value ω) :
    (trace store reflect limit g v).Reports (tree store reflect limit g v).events := by
  induction limit, g, v using boundInduction store reflect with
  | atom limit g v a hsight =>
    rw [trace_of_atom hsight, tree, hsight]
    simpa only [Node.events] using Trace.reports_report (.atom a)
  | whole limit g v x hsight =>
    rw [trace_of_whole hsight, tree, hsight]
    simpa only [Node.events] using Trace.reports_report (.whole x)
  | cut limit g v id cell hsight hcut =>
    rw [trace_of_cuts hsight hcut, tree, hsight]
    simpa only [hcut, if_true, Node.events] using Trace.reports_report .cycle
  | outside g v id cell hsight hcut =>
    rw [trace_zero hsight]
    exact Trace.reports_descend hcut (Trace.reports_halting .endless _)
  | inside limit g v id cell hsight hcut ih =>
    rw [trace_succ hsight, tree, hsight]
    simp only [hcut, Bool.false_eq_true, if_false]
    exact Trace.reports_descend hcut (Cell.reports_trace ih)

/-- Walks over several values report the events of their trees. -/
lemma reports_all (store : Store ω) (reflect : Bool) (limit : Nat) (g : Guard)
    (vs : List (Value ω)) :
    (Trace.all (trace store reflect limit g) vs).Reports
      (Node.itemEvents (vs.map (tree store reflect limit g))) := by
  rw [Node.itemEvents_eq, List.flatMap_map]
  exact Trace.reports_all fun v _ => reports_trace store reflect limit g v

/-- The bound of a guarded walk is never met: its tree is the unfolding. -/
theorem tree_eq_unfold {store : Store ω} {reflect : Bool} {limit : Nat} {path : List Identity}
    (hlimit : (store.unvisited path).card ≤ limit) (v : Value ω) :
    tree store reflect limit ⟨path, true⟩ v = store.unfold reflect path v := by
  induction limit using Nat.strongRecOn generalizing path v with
  | _ limit ih =>
    cases hsight : store.sight reflect v with
    | atom value => simp [tree, hsight, Store.unfold_of_atom hsight]
    | whole value => simp [tree, hsight, Store.unfold_of_whole hsight]
    | composite id cell =>
      by_cases hid : id ∈ path
      · simp [tree, hsight, Store.unfold_of_composite hsight, hid]
      · have hfewer := Store.card_unvisited_cons_lt hsight hid
        obtain ⟨limit, rfl⟩ : ∃ k, limit = k + 1 := ⟨limit - 1, by omega⟩
        simp only [tree, hsight, Store.unfold_of_composite hsight, hid, Guard.cuts_enabled,
          Guard.below_enabled hid, decide_false, Bool.false_eq_true, if_false]
        exact Cell.toNode_congr fun part _ => ih limit (by omega) (by omega) part

/-- Nothing is cut in an acyclic graph: the tree of an unguarded walk is the unfolding. -/
theorem tree_eq_unfold_of_acyclic {store : Store ω} {reflect : Bool} {limit : Nat}
    {path : List Identity} {v : Value ω} (hv : store.Acyclic reflect v)
    (hlimit : (store.composites reflect v).ncard ≤ limit) (hclear : store.Clear reflect path v) :
    tree store reflect limit (Guard.empty false) v = store.unfold reflect path v := by
  induction limit using Nat.strongRecOn generalizing path v with
  | _ limit ih =>
    cases hsight : store.sight reflect v with
    | atom value => simp [tree, hsight, Store.unfold_of_atom hsight]
    | whole value => simp [tree, hsight, Store.unfold_of_whole hsight]
    | composite id cell =>
      have hpos := Store.ncard_composites_pos hsight
      obtain ⟨limit, rfl⟩ : ∃ k, limit = k + 1 := ⟨limit - 1, by omega⟩
      rw [tree, hsight, Store.unfold_of_composite hsight, if_neg (hclear.notMem hsight)]
      refine Cell.toNode_congr fun part hpart => ?_
      have hcontains : store.Contains reflect v part := ⟨id, cell, hsight, hpart⟩
      have hfewer := hv.ncard_composites_lt hsight hpart
      exact ih limit (by omega) (hv.of_contains hcontains) (by omega)
        (hclear.cons hv hsight hpart)

end Walk

/-! ## Keys of calls -/

namespace Config

/-- The nodes that stand before the arguments: the declaring type, the name of the method and the
list of the parameter types, as far as the configuration includes them. -/
def prefixNodes (c : Config) : Option Signature → List (Node ω)
  | none => []
  | some s =>
    (if c.includeSignatureTypes then [.atom (.type s.declaringType)] else []) ++
      (if c.includeMethodName then [.atom (.text s.name)] else []) ++
      (if c.includeSignatureTypes then
        [.seq .list (s.parameterTypes.map fun t => .atom (.type t))] else [])

lemma prefixEvents_eq (c : Config) (s : Signature) :
    (c.prefixEvents s : List (Event ω)) = Node.itemEvents (c.prefixNodes (some s)) := by
  have htypes : Node.itemEvents (s.parameterTypes.map fun t => (.atom (.type t) : Node ω)) =
      s.parameterTypes.map fun t => .atom (.type t) := by
    rw [Node.itemEvents_eq, List.flatMap_map, List.map_eq_flatMap]
    simp only [Node.events]
  unfold prefixEvents prefixNodes
  cases c.includeSignatureTypes <;> cases c.includeMethodName <;>
    simp [Node.itemEvents, Node.events, htypes]

/-- The parts of a signature that are reported are those of the nodes. -/
lemma eq_itemEvents_of_signatureEvents {c : Config} {signature : Option Signature}
    {head : List (Event ω)} (h : c.signatureEvents signature = .ok head) :
    head = Node.itemEvents (c.prefixNodes signature) := by
  unfold signatureEvents at h
  split at h
  · cases signature with
    | none => cases h
    | some s =>
      cases h
      exact c.prefixEvents_eq s
  · rename_i hexcluded
    obtain ⟨hname, htypes⟩ : c.includeMethodName = false ∧ c.includeSignatureTypes = false := by
      simpa [includesSignature] using hexcluded
    cases h
    cases signature <;> simp [prefixNodes, hname, htypes, Node.itemEvents]

/-- The nodes of a call: the parts of the signature, and the tree of each argument. -/
def nodes (c : Config) (store : Store ω) (call : Invocation ω) : List (Node ω) :=
  c.prefixNodes call.signature ++
    call.arguments.map (Walk.tree store c.useReflection store.size (Guard.empty c.checkForCycles))

/-- The events of a call are those of its nodes, and the walk went to its end. -/
lemma report_eq_ok {c : Config} {store : Store ω} {call : Invocation ω} {events : List (Event ω)}
    (h : c.report store call = .ok events) :
    (c.trace store call).halt = none ∧ events = Node.itemEvents (c.nodes store call) := by
  unfold report at h
  cases hhead : (c.signatureEvents call.signature : Except Fault (List (Event ω))) with
  | error fault => simp [hhead] at h
  | ok head =>
    cases hhalt : (c.trace store call).halt with
    | some halt => simp [hhead, hhalt] at h
    | none =>
      have hreports := Walk.reports_all store c.useReflection store.size
        (Guard.empty c.checkForCycles) call.arguments
      simp only [hhead, hhalt, Except.ok.injEq] at h
      refine ⟨rfl, ?_⟩
      rw [← h, eq_itemEvents_of_signatureEvents hhead, trace, Walk.traceAll, hreports.2 hhalt,
        nodes]
      simp [Node.itemEvents_eq]

/-- A structural key that is made consists of the nodes of the call. -/
lemma structuralKey_eq_ok {c : Config} {store : Store ω} {call : Invocation ω} {session : Session}
    {key : StructuralKey ω} (h : (c.structuralKey store call session).1 = .ok key) :
    (c.trace store call).halt = none ∧ key.nodes = c.nodes store call := by
  rw [structuralKey_fst] at h
  cases hreport : c.report store call with
  | error halt => simp [hreport, Except.map] at h
  | ok events =>
    obtain ⟨hhalt, rfl⟩ := report_eq_ok hreport
    rw [hreport] at h
    cases h
    exact ⟨hhalt, by rw [StructuralKey.ofEvents_itemEvents]⟩

/-- With the check for cycles the nodes of the arguments are their unfoldings. -/
lemma nodes_eq_unfold {c : Config} (hcheck : c.checkForCycles = true) (store : Store ω)
    (call : Invocation ω) :
    c.nodes store call =
      c.prefixNodes call.signature ++ call.arguments.map (store.unfold c.useReflection []) := by
  have htree (v : Value ω) : Walk.tree store c.useReflection store.size (Guard.empty true) v =
      store.unfold c.useReflection [] v := Walk.tree_eq_unfold store.card_unvisited_nil_le v
  rw [nodes, hcheck, List.map_congr_left fun v _ => htree v]

/-- Over acyclic graphs the check for cycles makes no difference. -/
lemma nodes_eq_unfold_of_acyclic {c : Config} {store : Store ω} {call : Invocation ω}
    (hcall : ∀ v ∈ call.arguments, store.Acyclic c.useReflection v) :
    c.nodes store call =
      c.prefixNodes call.signature ++ call.arguments.map (store.unfold c.useReflection []) := by
  cases hcheck : c.checkForCycles with
  | true => exact nodes_eq_unfold hcheck store call
  | false =>
    rw [nodes, hcheck]
    refine congrArg _ (List.map_congr_left fun v hv => ?_)
    exact Walk.tree_eq_unfold_of_acyclic (hcall v hv)
      (store.ncard_composites_le_size c.useReflection v) Store.clear_nil

/-- **The structural key is the unfolding of the argument graph.**  Whenever a guarded structural
key is made, its nodes are the parts of the signature that the configuration includes, followed by
the unfolding of each argument below an empty path. -/
theorem nodes_structuralKey {c : Config} (hcheck : c.checkForCycles = true) {store : Store ω}
    {call : Invocation ω} {session : Session} {key : StructuralKey ω}
    (h : (c.structuralKey store call session).1 = .ok key) :
    key.nodes =
      c.prefixNodes call.signature ++ call.arguments.map (store.unfold c.useReflection []) := by
  rw [(structuralKey_eq_ok h).2, nodes_eq_unfold hcheck]

theorem nodes_structuralKey_knot :
    let call : Invocation Unit :=
      { signature := some ⟨⟨"Shop"⟩, "price", [⟨"List"⟩]⟩
        arguments := [.ref .list ⟨0⟩, .ref .set ⟨0⟩, .ref .map ⟨1⟩] }
    let head : List (Node Unit) :=
      [.atom (.type ⟨"Shop"⟩), .atom (.text "price"), .seq .list [.atom (.type ⟨"List"⟩)]]
    let nodes : List (Node Unit) :=
      [.seq .list [.cycle, .map [(.cycle, .atom .null)]],
        .seq .set [.cycle, .map [(.cycle, .atom .null)]],
        .map [(.seq .list [.cycle, .cycle], .atom .null)]]
    (({} : Config).structuralKey Store.knot call {}).1 = .ok ⟨head ++ nodes⟩ ∧
      head ++ nodes = ({} : Config).prefixNodes call.signature ++
        [Store.knot.unfold false [] (.ref .list ⟨0⟩), Store.knot.unfold false [] (.ref .set ⟨0⟩),
          Store.knot.unfold false [] (.ref .map ⟨1⟩)] := by
  intro call head nodes
  have hkey : (({} : Config).structuralKey Store.knot call {}).1 = .ok ⟨head ++ nodes⟩ := rfl
  exact ⟨hkey, nodes_structuralKey rfl hkey⟩

end Config

end MemoKey
