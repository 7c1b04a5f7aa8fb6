import MemoKey.Derive.FieldType
import MemoKey.Proofs.WrittenTypes

/-!
# Reading types

Types in writing are read back as they are, with the last name of their path.  `Rule.Reads` says
what a rule makes of given trees; it has one lemma for each way that rules are combined.

A type is read wherever it ends, which is where `EndsType` holds.  `Grammar.ReadsType` says so of a
grammar and a type.  For each form of types there is one lemma that takes it from the parts of a
type to the whole, so that a grammar that is unrolled as often as the type is deep reads it:
`PlainType.readsType_level`.  A text has at least as many lexemes as its type has levels, and
`PlainType.typeOf_text` and `FieldType.ofText_text` follow.
-/

namespace MemoKey.Derive

open Derive.Tree

/-! ## Rules -/

namespace Rule

variable {ε α β : Type}

/-- What reads from trees gets a thing out of them and leaves the rest. -/
def Reads (rule : StateT (List Tree) (Except ε) α) (ts : List Tree) (a : α) (rest : List Tree) :
    Prop :=
  rule.run ts = .ok (a, rest)

section

variable {rule : StateT (List Tree) (Except ε) α} {next : α → StateT (List Tree) (Except ε) β}
  {ts mid rest : List Tree} {a : α} {b : β}

lemma reads_pure (a : α) (ts : List Tree) :
    Reads (pure a : StateT (List Tree) (Except ε) α) ts a ts :=
  rfl

lemma Reads.bind (h : Reads rule ts a mid) (hnext : Reads (next a) mid b rest) :
    Reads (rule >>= next) ts b rest := by
  unfold Reads at h
  rw [Reads, StateT.run_bind, h]
  exact hnext

lemma reads_get {next : List Tree → StateT (List Tree) (Except ε) β}
    (h : Reads (next ts) ts b rest) : Reads (get >>= next) ts b rest :=
  h

lemma Reads.map {f : α → β} (h : Reads rule ts a rest) : Reads (f <$> rule) ts (f a) rest := by
  rw [map_eq_pure_bind]
  exact h.bind (reads_pure (f a) rest)

end

section

variable {rule : Rule α} {ts mid rest : List Tree} {a : α}

lemma reads_takeIf {isFit : List Tree → Bool} (h : isFit ts = true) (count : Nat) :
    Reads (takeIf isFit count) ts (textOfList (ts.take count)) (ts.drop count) := by
  refine reads_get ?_
  rw [if_pos h]
  rfl

lemma isSign_self {s : String} {c : Char} {isJoined : Bool} (hs : s.toList = [c]) :
    isSign s (leaf (.sign c isJoined) :: rest) = true := by
  simp [isSign, hs, isSignOf]

lemma isGroup_self (d : Delimiter) (inside rest : List Tree) :
    isGroup d (group d inside :: rest) = true := by
  simp [isGroup]

/-- A sign of one character. -/
lemma reads_sign {s : String} {c : Char} {isJoined : Bool} (hs : s.toList = [c]) :
    Reads (sign s) (leaf (.sign c isJoined) :: rest) s rest := by
  have hlength : s.length = 1 := by rw [← String.length_toList, hs]; rfl
  have htext : textOfList [leaf (.sign c isJoined)] = s := by
    rw [← String.toList_inj, hs]
    simp [textOfList, Tree.text, Token.text]
  have hstart : isSign s (leaf (.sign c isJoined) :: rest) = true := isSign_self hs
  simpa [sign, hlength, htext] using reads_takeIf hstart s.length

lemma reads_optionally {isFit : List Tree → Bool} {rule : Rule String} {text : String}
    (h : isFit ts = true) (hrule : Reads rule ts text rest) :
    Reads (optionally isFit rule) ts text rest := by
  refine reads_get ?_
  rwa [if_pos h]

lemma reads_optionally_nothing {isFit : List Tree → Bool} {rule : Rule String}
    (h : isFit ts = false) : Reads (optionally isFit rule) ts "" ts := by
  refine reads_get ?_
  rw [if_neg (by simp [h])]
  exact reads_pure "" ts

lemma reads_inOrder_nil : Reads (inOrder []) ts "" ts :=
  rfl

lemma reads_inOrder_cons {rule : Rule String} {rules : List (Rule String)} {text texts : String}
    (h : Reads rule ts text mid) (hrules : Reads (inOrder rules) mid texts rest) :
    Reads (inOrder (rule :: rules)) ts (text ++ texts) rest := by
  cases hall : (rules.mapM id).run mid with
  | error misfit => simp [Reads, inOrder, hall] at hrules
  | ok read =>
    obtain ⟨rfl, rfl⟩ : String.join read.1 = texts ∧ read.2 = rest := by
      simpa [Reads, inOrder, hall, Except.map_ok] using hrules
    have hread : Reads (rules.mapM id) mid read.1 read.2 := hall
    rw [inOrder, List.mapM_cons, ← String.join_cons]
    exact (h.bind (hread.bind (reads_pure (text :: read.1) read.2))).bind (reads_pure _ read.2)

lemma reads_inside {d : Delimiter} {inner : List Tree} (h : Reads rule inner a []) :
    Reads (inside d rule) (group d inner :: rest) a rest := by
  have hinner : Reads (liftM (rule.run inner) : Rule (α × List Tree)) (group d inner :: rest)
      (a, []) (group d inner :: rest) := by
    rw [show rule.run inner = .ok (a, []) from h]
    rfl
  refine reads_get ?_
  simp only [bne_self_eq_false, Bool.false_eq_true, if_false]
  exact hinner.bind (Reads.bind (a := ()) rfl (reads_pure a rest))

lemma reads_manyUpTo_nothing {isEnd : List Tree → Bool} (h : isEnd ts = true) (bound : Nat) :
    Reads (manyUpTo isEnd rule bound) ts [] ts := by
  cases bound with
  | zero => exact reads_pure [] ts
  | succ bound =>
    refine reads_get ?_
    rw [if_pos h]
    exact reads_pure [] ts

end

end Rule

/-! ## Where a type starts and ends -/

/-- What follows a type: nothing, or a sign that the type cannot go on with. -/
inductive EndsType : List Tree → Prop
  | nothing : EndsType []
  | sign {c : Char} (hc : c ∈ [',', '>', ';']) (isJoined : Bool) (rest : List Tree) :
    EndsType (leaf (.sign c isJoined) :: rest)

namespace EndsType

variable {rest : List Tree}

lemma isSign_eq_false (h : EndsType rest) {s : String} {d : Char} {ds : List Char}
    (hs : s.toList = d :: ds) (hd : d ∉ [',', '>', ';']) : isSign s rest = false := by
  cases h with
  | nothing => simp [isSign, hs, isSignOf]
  | @sign c hc _ _ =>
    have hne : d ≠ c := by
      rintro rfl
      exact hd hc
    cases ds <;> simp [isSign, hs, isSignOf, hne]

lemma isGroup_eq_false (h : EndsType rest) (d : Delimiter) : isGroup d rest = false := by
  cases h <;> rfl

end EndsType

/-- A type starts with a name or with brackets that are no braces. -/
inductive StartsType : List Tree → Prop
  | name (n : PlainName) (rest : List Tree) : StartsType (leaf (.word n.text) :: rest)
  | group {d : Delimiter} (hd : d ≠ .braces) (inside rest : List Tree) :
    StartsType (group d inside :: rest)

namespace PlainType

lemma startsType_trees (t : PlainType) (follows : Bool) (rest : List Tree) :
    StartsType (t.trees follows ++ rest) := by
  cases t with
  | path first further arguments => exact .name first _
  | slice | array | tuple => exact .group (by decide) _ _

/-! ### Commas -/

/-- Things with commas between them: each with whether a comma follows. -/
def withCommas {α : Type} : List α → List (α × Bool)
  | [] => []
  | a :: as => (a, !as.isEmpty) :: withCommas as

lemma join_withCommas (texts : List String) :
    String.join ((withCommas texts).map fun (text, isClosed) =>
      if isClosed then text ++ "," else text) = ",".intercalate texts := by
  induction texts with
  | nil => rfl
  | cons text rest ih =>
    rw [withCommas, List.map_cons, String.join_cons, ih]
    cases rest with
    | nil => simp
    | cons next rest => simp [String.append_assoc]

lemma map_fst_withCommas {α : Type} (as : List α) : (withCommas as).map (·.1) = as := by
  induction as with
  | nil => rfl
  | cons a as ih => rw [withCommas, List.map_cons, ih]

/-- No comma follows the last thing. -/
lemma getLast?_withCommas {α : Type} (as : List α) :
    (withCommas as).getLast?.any (·.2) = false := by
  induction as with
  | nil => rfl
  | cons a as ih =>
    cases as with
    | nil => rfl
    | cons b as => rwa [withCommas, withCommas, List.getLast?_cons_cons, ← withCommas]

/-- Arguments that are no lifetimes keep their order. -/
lemma list_withCommas {as : List Argument} (h : ∀ a ∈ as, a.isLifetime = false) :
    Argument.list (withCommas as) = ",".intercalate (as.map (·.text)) := by
  have hnone : ∀ e ∈ withCommas as, e.1.isLifetime = false := fun e he => by
    have hfst := List.mem_map_of_mem (f := (·.1)) he
    rw [map_fst_withCommas] at hfst
    exact h e.1 hfst
  have hlifetimes : (withCommas as).filter (·.1.isLifetime) = [] :=
    List.filter_eq_nil_iff.mpr fun e he => by simp [hnone e he]
  have hothers : (withCommas as).filter (!·.1.isLifetime) = withCommas as :=
    List.filter_eq_self.mpr fun e he => by simp [hnone e he]
  have htexts : (withCommas as).map (·.1.text) = as.map (·.text) := by
    have hfst := congrArg (List.map (·.text)) (map_fst_withCommas as)
    rw [List.map_map] at hfst
    exact hfst
  simp only [Argument.list, hlifetimes, hothers, List.nil_append, htexts, getLast?_withCommas,
    Bool.false_eq_true, if_false, String.append_empty]

lemma length_le_length_treesOf (ts : List PlainType) (follows : Bool) :
    ts.length ≤ (treesOf follows ts).length := by
  induction ts with
  | nil => exact Nat.zero_le _
  | cons t ts ih =>
    have hpos : 0 < (t.trees (follows || !ts.isEmpty)).length := by
      cases t <;> simp [trees, nameTrees]
    simp only [treesOf, List.length_append, List.length_cons]
    omega

lemma textsOf_eq_map (ts : List PlainType) : textsOf ts = ts.map text := by
  induction ts with
  | nil => rfl
  | cons t ts ih => rw [textsOf, ih, List.map_cons]

open Rule

/-- Types with commas between them are read one after the other, given how each is read. -/
lemma reads_treesOf {α : Type} {rule : Rule α} {value : PlainType → α}
    {isEnd : List Tree → Bool} (hstart : ∀ ts, StartsType ts → isEnd ts = false)
    {ts : List PlainType} (follows : Bool) {rest : List Tree}
    (hrule : ∀ t ∈ ts, ∀ follows rest, EndsType rest →
      Reads rule (t.trees follows ++ rest) (value t) rest)
    (hends : EndsType rest) (hend : isEnd rest = true) (hcomma : isSign "," rest = false)
    {bound : Nat} (hbound : ts.length ≤ bound) :
    Reads (separatedUpTo "," isEnd rule bound) (treesOf follows ts ++ rest)
      (withCommas (ts.map value)) rest := by
  induction ts generalizing bound with
  | nil =>
    cases bound with
    | zero => exact reads_pure [] rest
    | succ bound =>
      refine reads_get ?_
      rw [if_pos (by simpa [treesOf] using hend)]
      exact reads_pure [] rest
  | cons t ts ih =>
    obtain ⟨bound, rfl⟩ := Nat.exists_eq_add_of_le' ((Nat.succ_pos _).trans_le hbound)
    obtain ⟨ht, hts⟩ := List.forall_mem_cons.mp hrule
    have hgoesOn : isEnd (treesOf follows (t :: ts) ++ rest) = false := by
      rw [treesOf, List.append_assoc, List.append_assoc]
      exact hstart _ (startsType_trees t _ _)
    refine reads_get ?_
    rw [if_neg (by simp [hgoesOn])]
    cases ts with
    | nil =>
      have hshape : treesOf follows [t] ++ rest = t.trees follows ++ rest := by
        simp [treesOf, commaBefore]
      rw [hshape]
      refine (ht follows rest hends).bind (reads_get ?_)
      rw [if_neg (by simp [hcomma])]
      exact reads_pure [(value t, false)] rest
    | cons u us =>
      have hshape : treesOf follows (t :: u :: us) ++ rest =
          t.trees true ++ leaf (.sign ',' false) :: (treesOf follows (u :: us) ++ rest) := by
        rw [treesOf]
        simp [commaBefore]
      rw [hshape]
      refine (ht true _ (.sign (by decide) _ _)).bind (reads_get ?_)
      rw [if_pos (isSign_self rfl)]
      refine (reads_sign rfl).bind ((ih hts (by simpa using hbound)).bind ?_)
      exact reads_pure (withCommas ((t :: u :: us).map value)) rest

/-! ## What is read of a type -/

/-- The arguments of a segment. -/
def argumentsOf (arguments : List PlainType) : Arguments :=
  if arguments.isEmpty then .none else .angled (angled (textsOf arguments)) false

/-- The segments of a path, the last of which has the arguments. -/
def segments (first : PlainName) (further : List PlainName) (arguments : Arguments) :
    List Segment :=
  match further with
  | [] => [⟨first.text, arguments⟩]
  | n :: ns => ⟨first.text, .none⟩ :: segments n ns arguments

/-- What the rules around a type have to know about it. -/
def form : PlainType → TypeForm
  | path first further arguments =>
    .path { segments := segments first further (argumentsOf arguments) }
  | _ => .other

lemma text_argumentsOf (arguments : List PlainType) :
    (argumentsOf arguments).text = angled (textsOf arguments) := by
  cases arguments <;> rfl

lemma text_segments (first : PlainName) (further : List PlainName) (arguments : Arguments) :
    "::".intercalate ((segments first further arguments).map (·.text)) =
      "::".intercalate ((first :: further).map (·.text)) ++ arguments.text := by
  induction further generalizing first with
  | nil => simp [segments, Segment.text]
  | cons n ns ih =>
    have hne : (segments n ns arguments).map (·.text) ≠ [] := by cases ns <;> simp [segments]
    obtain ⟨text, texts, htexts⟩ := List.exists_cons_of_ne_nil hne
    have hih := ih n
    rw [htexts] at hih
    rw [segments, List.map_cons, htexts, List.map_cons, List.map_cons,
      String.intercalate_cons_cons, String.intercalate_cons_cons, hih]
    simp [Segment.text, Arguments.text, String.append_assoc]

lemma last?_segments (first : PlainName) (further : List PlainName) (arguments : Arguments) :
    Path.last? { segments := segments first further arguments } =
      some ((first :: further).getLast nofun).text := by
  induction further generalizing first with
  | nil => rfl
  | cons n ns ih =>
    have hne : segments n ns arguments ≠ [] := by cases ns <;> simp [segments]
    obtain ⟨s, ss, hsegments⟩ := List.exists_cons_of_ne_nil hne
    have hih := ih n
    rw [Path.last?, hsegments] at hih
    rw [Path.last?, segments, hsegments, List.getLast?_cons_cons, hih]
    rfl

end PlainType

/-! ## Names -/

namespace PlainName

variable (n : PlainName) (rest : List Tree)

lemma isWord_eq_false {w : String} (hw : w ∈ reservedWords) :
    Tree.isWord w (leaf (.word n.text) :: rest) = false := by
  have hne : n.text ≠ w := by
    rintro rfl
    exact n.isFree hw
  simp [Tree.isWord, hne]

lemma isAnyWordOf_eq_false {ws : List String} (h : ∀ w ∈ ws, w ∈ reservedWords) :
    isAnyWordOf ws (leaf (.word n.text) :: rest) = false := by
  by_contra hmem
  exact n.isFree (h n.text (by simpa [isAnyWordOf] using hmem))

lemma isName_eq_true : isName (leaf (.word n.text) :: rest) = true := by
  have hkeyword : n.text ∉ keywords := fun h => n.isFree (by simp [reservedWords, h])
  simp [isName, hkeyword]

lemma isLiteral_eq_false : isLiteral (leaf (.word n.text) :: rest) = false := by
  have htrue : n.text ≠ "true" := fun h => n.isFree (h ▸ by decide)
  have hfalse : n.text ≠ "false" := fun h => n.isFree (h ▸ by decide)
  simp [isLiteral, literalLength, htrue, hfalse]

lemma reads_name : Rule.Reads Rule.name (leaf (.word n.text) :: rest) n.text rest := by
  have h := Rule.reads_takeIf (n.isName_eq_true rest) 1
  simpa [Rule.name, textOfList, Tree.text, Token.text] using h

end PlainName

/-! ### What a type does not start with -/

namespace StartsType

variable {ts : List Tree}

lemma isEmpty_eq_false (h : StartsType ts) : ts.isEmpty = false := by
  cases h <;> rfl

lemma isSign_eq_false (h : StartsType ts) {s : String} {c : Char} (hs : s.toList = [c]) :
    isSign s ts = false := by
  cases h <;> simp [isSign, hs, isSignOf]

lemma isLifetime_eq_false (h : StartsType ts) : isLifetime ts = false := by
  cases h <;> rfl

lemma isLiteral_eq_false (h : StartsType ts) : isLiteral ts = false := by
  cases h with
  | name n rest => exact n.isLiteral_eq_false rest
  | group => rfl

lemma isBraces_eq_false (h : StartsType ts) : isGroup .braces ts = false := by
  cases h with
  | name => rfl
  | group hd => simpa [isGroup] using hd.symm

end StartsType

/-! ## Reading types -/

namespace Grammar

open Rule PlainType

variable {g : Grammar}

/-- A grammar reads a type wherever the type ends. -/
def ReadsType (g : Grammar) (t : PlainType) : Prop :=
  ∀ (follows : Bool) (rest : List Tree), EndsType rest →
    Reads (g.type true) (t.trees follows ++ rest) ⟨t.text, t.form⟩ rest

/-! ### Arguments -/

lemma ReadsType.anyType {t : PlainType} (h : g.ReadsType t) (follows : Bool) {rest : List Tree}
    (hends : EndsType rest) : Reads g.anyType (t.trees follows ++ rest) t.text rest :=
  (h follows rest hends).bind (reads_pure t.text rest)

lemma ReadsType.typeArgument {t : PlainType} (h : g.ReadsType t) (follows : Bool)
    {rest : List Tree} (hends : EndsType rest) :
    Reads g.typeArgument (t.trees follows ++ rest) t.text rest := by
  refine reads_get ((h follows rest hends).bind (reads_get ?_))
  have hequals : isSign "=" rest = false := hends.isSign_eq_false rfl (by decide)
  have hcolon : isSign ":" rest = false := hends.isSign_eq_false rfl (by decide)
  simp only [hequals, hcolon, Bool.and_false, Bool.false_eq_true, if_false]
  exact reads_pure t.text rest

/-- Nothing is equated to a name that a type starts with, and no bounds are stated for it. -/
lemma isSign_after_name (t : PlainType) (follows : Bool) {rest : List Tree}
    (hends : EndsType rest) (hname : isName (t.trees follows ++ rest) = true) :
    isSign "=" ((t.trees follows ++ rest).drop 1) = false ∧
      isColon ((t.trees follows ++ rest).drop 1) = false := by
  cases t with
  | slice | array | tuple => simp [trees, isName] at hname
  | path first further arguments =>
    cases further with
    | cons n ns => exact ⟨rfl, rfl⟩
    | nil =>
      cases arguments with
      | cons t ts => exact ⟨rfl, rfl⟩
      | nil =>
        have hequals : isSign "=" rest = false := hends.isSign_eq_false rfl (by decide)
        have hcolon : isSign ":" rest = false := hends.isSign_eq_false rfl (by decide)
        exact ⟨hequals, by simp [isColon, trees, nameTrees, hcolon]⟩

lemma ReadsType.argument {t : PlainType} (h : g.ReadsType t) (follows : Bool) {rest : List Tree}
    (hends : EndsType rest) :
    Reads g.argument (t.trees follows ++ rest) ⟨t.text, false⟩ rest := by
  have hstart := startsType_trees t follows rest
  have hafter := isSign_after_name t follows hends
  have hequals : (isName (t.trees follows ++ rest) &&
      isSign "=" ((t.trees follows ++ rest).drop 1)) = false := by
    simpa using fun hname => (hafter hname).1
  have hcolon : (isName (t.trees follows ++ rest) &&
      isColon ((t.trees follows ++ rest).drop 1)) = false := by
    simpa using fun hname => (hafter hname).2
  refine reads_get ?_
  simp only [hstart.isLifetime_eq_false, hstart.isLiteral_eq_false, hstart.isBraces_eq_false,
    hequals, hcolon, Bool.false_and, Bool.false_eq_true, if_false]
  exact (h.typeArgument follows hends).bind (reads_pure _ rest)

/-- The trees of generic arguments. -/
lemma reads_angledArguments {arguments : List PlainType} (hne : arguments ≠ [])
    (h : ∀ t ∈ arguments, g.ReadsType t) (follows : Bool) (rest : List Tree) :
    Reads g.angledArguments
      (leaf (.sign '<' false) :: (treesOf true arguments ++ leaf (.sign '>' follows) :: rest))
      (argumentsOf arguments) rest := by
  have hread : Reads (separatedUpTo "," (isSign ">") g.argument
      (treesOf true arguments ++ leaf (.sign '>' follows) :: rest).length)
      (treesOf true arguments ++ leaf (.sign '>' follows) :: rest)
      (withCommas (arguments.map fun t => ⟨t.text, false⟩)) (leaf (.sign '>' follows) :: rest) :=
    reads_treesOf (fun _ hts => hts.isSign_eq_false rfl) true
      (fun t ht follows _ hends => (h t ht).argument follows hends)
      (.sign (by decide) follows rest) (isSign_self rfl) (by simp [isSign, isSignOf])
      ((length_le_length_treesOf arguments true).trans (by simp))
  refine (reads_optionally_nothing rfl).bind ((reads_sign rfl).bind ?_)
  refine Reads.bind (reads_get hread) ((reads_sign rfl).bind ?_)
  have hvalue : argumentsOf arguments = .angled
      ("" ++ "<" ++ Argument.list (withCommas (arguments.map fun t => ⟨t.text, false⟩)) ++ ">")
      (withCommas (arguments.map fun t => (⟨t.text, false⟩ : Argument))).isEmpty := by
    rw [list_withCommas (by simp), List.map_map]
    cases arguments with
    | nil => exact absurd rfl hne
    | cons t ts =>
      simp [argumentsOf, angled, textsOf_eq_map, withCommas, Function.comp_def, String.append_assoc]
  rw [hvalue]
  exact reads_pure _ rest

/-! ### Paths -/

/-- What is left when the last name of a path has been read. -/
def afterNames (arguments : List PlainType) (follows : Bool) (rest : List Tree) : List Tree :=
  (if arguments.isEmpty then []
    else leaf (.sign '<' false) :: (treesOf true arguments ++ [leaf (.sign '>' follows)])) ++ rest

section

variable {arguments : List PlainType} {rest : List Tree}

/-- A segment is a name with the arguments that come next, if some do. -/
lemma reads_segment {n : PlainName} {tail : List Tree} {read : Arguments}
    (h : Reads (if (isSign "<" tail && !isSign "<=" tail) ||
        (isSign "::" tail && isSign "<" (tail.drop 2)) then g.angledArguments
      else pure .none) tail read rest) :
    Reads (g.segment true) (leaf (.word n.text) :: tail) ⟨n.text, read⟩ rest := by
  have hkeyword : isAnyWordOf ["super", "self", "crate", "try"] (leaf (.word n.text) :: tail) =
      false := n.isAnyWordOf_eq_false tail (by decide)
  have hself : isWord "Self" (leaf (.word n.text) :: tail) = false :=
    n.isWord_eq_false tail (by decide)
  refine reads_get ?_
  simp only [hkeyword, hself, Bool.false_eq_true, if_false]
  refine (n.reads_name tail).bind (reads_get ?_)
  simp only [Bool.true_and]
  split
  case isTrue hangled =>
    rw [if_pos hangled] at h
    exact h.bind (reads_pure _ rest)
  case isFalse hangled =>
    rw [if_neg hangled] at h
    exact h.bind (reads_pure _ rest)

lemma reads_segment_last (n : PlainName) (h : ∀ t ∈ arguments, g.ReadsType t) (follows : Bool)
    (hends : EndsType rest) :
    Reads (g.segment true) (leaf (.word n.text) :: afterNames arguments follows rest)
      ⟨n.text, argumentsOf arguments⟩ rest := by
  refine reads_segment ?_
  cases arguments with
  | nil =>
    have hopener : isSign "<" rest = false := hends.isSign_eq_false rfl (by decide)
    have hcolons : isSign "::" rest = false := hends.isSign_eq_false rfl (by decide)
    simp only [afterNames, List.isEmpty_nil, if_true, List.nil_append, hopener, hcolons,
      Bool.false_and, Bool.or_false, Bool.false_eq_true, if_false]
    exact reads_pure Arguments.none rest
  | cons t ts =>
    have hread := reads_angledArguments (List.cons_ne_nil t ts) h follows rest
    have hopener : isSign "<" (afterNames (t :: ts) follows rest) = true := isSign_self rfl
    have hlessEqual : isSign "<=" (afterNames (t :: ts) follows rest) = false := rfl
    simp only [hopener, hlessEqual, Bool.not_false, Bool.and_self, Bool.true_or, if_true]
    simpa [afterNames] using hread

lemma reads_segment_before (n m : PlainName) (more : List Tree) :
    Reads (g.segment true) (leaf (.word n.text) :: (colons ++ leaf (.word m.text) :: more))
      ⟨n.text, .none⟩ (colons ++ leaf (.word m.text) :: more) :=
  reads_segment (reads_pure Arguments.none _)

lemma reads_colons (more : List Tree) : Reads (sign "::") (colons ++ more) "::" more := by
  have hstart : isSign "::" (colons ++ more) = true := rfl
  have htext : textOfList ((colons ++ more).take 2) = "::" := by
    change textOfList colons = "::"
    decide
  have h := reads_takeIf hstart 2
  rw [htext] at h
  exact h

lemma length_le_length_nameTrees (first : PlainName) (further : List PlainName) :
    further.length + 1 ≤ (nameTrees first further).length := by
  induction further generalizing first with
  | nil => exact le_rfl
  | cons n ns ih =>
    have hns := ih n
    simp only [nameTrees, colons, List.flatMap_cons, List.length_append, List.length_cons] at hns ⊢
    omega

/-- The first segment is read, and then those that follow it. -/
lemma reads_segments (first : PlainName) (further : List PlainName)
    (h : ∀ t ∈ arguments, g.ReadsType t) (follows : Bool) (hends : EndsType rest) :
    ∃ s ss mid, segments first further (argumentsOf arguments) = s :: ss ∧
      Reads (g.segment true) (nameTrees first further ++ afterNames arguments follows rest) s mid ∧
      further.length ≤ mid.length ∧ ∀ bound, further.length ≤ bound →
        Reads (manyUpTo (fun trees => !isSign "::" trees || isGroup .parentheses (trees.drop 2))
          (do let _ ← sign "::"; g.segment true) bound) mid ss rest := by
  induction further generalizing first with
  | nil =>
    have hcolons : isSign "::" rest = false := hends.isSign_eq_false rfl (by decide)
    exact ⟨_, [], rest, rfl, reads_segment_last first h follows hends, Nat.zero_le _, fun bound _ =>
      reads_manyUpTo_nothing (by simp [hcolons]) bound⟩
  | cons n ns ih =>
    obtain ⟨s, ss, mid, hsegments, hsegment, -, hmore⟩ := ih n
    refine ⟨_, _, colons ++ (nameTrees n ns ++ afterNames arguments follows rest), rfl,
      reads_segment_before first n _, ?_, fun bound hbound => ?_⟩
    · have hnames := length_le_length_nameTrees n ns
      simp only [List.length_append, List.length_cons]
      omega
    · obtain ⟨bound, rfl⟩ := Nat.exists_eq_add_of_le' ((Nat.succ_pos _).trans_le hbound)
      rw [hsegments]
      refine reads_get ?_
      rw [if_neg nofun]
      refine ((reads_colons _).bind hsegment).bind ((hmore bound (by simpa using hbound)).bind ?_)
      exact reads_pure (s :: ss) rest

lemma reads_pathWithInputs_nothing (hends : EndsType rest) (bound : Nat) (p : Path) :
    Reads (g.pathWithInputs bound p) rest p rest := by
  cases bound with
  | zero => exact reads_pure p rest
  | succ bound =>
    have hcolons : isSign "::" rest = false := hends.isSign_eq_false rfl (by decide)
    have hinputs : startsInputs rest = false := by
      simp [startsInputs, hcolons, hends.isGroup_eq_false]
    refine reads_get ?_
    rw [if_neg (by simp [hinputs])]
    exact reads_pure p rest

/-- A path is read as the segments that it is written with. -/
lemma reads_typePath (first : PlainName) (further : List PlainName)
    (h : ∀ t ∈ arguments, g.ReadsType t) (follows : Bool) (hends : EndsType rest) :
    Reads g.typePath (nameTrees first further ++ afterNames arguments follows rest)
      { segments := segments first further (argumentsOf arguments) } rest := by
  obtain ⟨s, ss, mid, hsegments, hsegment, hlength, hmore⟩ :=
    reads_segments first further h follows hends
  rw [hsegments]
  have hpath : Reads (g.qualifiedPath true)
      (nameTrees first further ++ afterNames arguments follows rest)
      { segments := s :: ss } rest := by
    refine reads_get ?_
    rw [if_neg nofun]
    refine (reads_optionally_nothing rfl).bind (hsegment.bind ?_)
    exact Reads.bind (reads_get (hmore mid.length hlength)) (reads_pure _ rest)
  exact hpath.bind (reads_get (reads_pathWithInputs_nothing hends _ _))

end

/-! ### Types -/

section

variable {follows : Bool} {rest : List Tree}

/-- A type that starts with a name is a path, the call of a macro or a sum. -/
lemma reads_readType_of_name {n : PlainName} {tail : List Tree} {allowsSum : Bool}
    {read : TypeText}
    (h : Reads (g.namedType "" allowsSum) (leaf (.word n.text) :: tail) read rest) :
    Reads (g.readType allowsSum) (leaf (.word n.text) :: tail) read rest := by
  have hfor : isWord "for" (leaf (.word n.text) :: tail) = false :=
    n.isWord_eq_false tail (by decide)
  have hdyn : isWord "dyn" (leaf (.word n.text) :: tail) = false :=
    n.isWord_eq_false tail (by decide)
  have hfunction : isAnyWordOf ["fn", "unsafe", "extern"] (leaf (.word n.text) :: tail) = false :=
    n.isAnyWordOf_eq_false tail (by decide)
  have hpath : isPath (leaf (.word n.text) :: tail) = true := by
    simp [isPath, isPlainPath, isSegment, n.isName_eq_true tail]
  refine reads_get ((reads_optionally_nothing hfor).bind (reads_get ?_))
  rw [if_neg nofun, if_neg (by simp [hfunction]), if_neg (by simp [hdyn]), if_pos hpath]
  exact h

lemma reads_path {first : PlainName} {further : List PlainName} {arguments : List PlainType}
    (h : ∀ t ∈ arguments, g.ReadsType t) (hends : EndsType rest) (allowsSum : Bool) :
    Reads (g.readType allowsSum) ((PlainType.path first further arguments).trees follows ++ rest)
      ⟨(PlainType.path first further arguments).text,
        (PlainType.path first further arguments).form⟩ rest := by
  have hpath := reads_typePath first further h follows hends
  have hshape : (PlainType.path first further arguments).trees follows ++ rest =
      nameTrees first further ++ afterNames arguments follows rest := by
    rw [trees, List.append_assoc, afterNames]
  rw [hshape]
  refine reads_readType_of_name ?_
  refine hpath.bind (reads_get ?_)
  have hcall : isSign "!" rest = false := hends.isSign_eq_false rfl (by decide)
  have hplus : isSign "+" rest = false := hends.isSign_eq_false rfl (by decide)
  have htext : "" ++ Path.text { segments := segments first further (argumentsOf arguments) } =
      (PlainType.path first further arguments).text := by
    simp [Path.text, text_segments, text_argumentsOf, PlainType.text]
  simp only [Option.isSome_none, hcall, hplus, Bool.and_false, Bool.false_and, Bool.false_eq_true,
    if_false, htext]
  exact (reads_pure "" rest).bind (reads_pure _ rest)

/-- A type in square brackets is a slice or an array. -/
lemma reads_readType_of_brackets {inner : List Tree} {text : String}
    (h : Reads (inOrder [g.anyType, optionally (isSign ";")
      (inOrder [sign ";", g.expression true])]) inner text []) (allowsSum : Bool) :
    Reads (g.readType allowsSum) (group .brackets inner :: rest)
      ⟨Delimiter.brackets.enclose text, .other⟩ rest := by
  refine reads_get ((reads_optionally_nothing rfl).bind (reads_get ?_))
  rw [if_neg nofun, if_neg nofun, if_neg nofun, if_neg nofun, if_pos (isGroup_self _ inner rest)]
  exact (reads_inside h).map.bind (reads_pure _ rest)

lemma reads_slice {item : PlainType} (h : g.ReadsType item) (allowsSum : Bool) :
    Reads (g.readType allowsSum) ((slice item).trees follows ++ rest)
      ⟨(slice item).text, .other⟩ rest := by
  refine reads_readType_of_brackets ?_ allowsSum
  have hitem := h.anyType false .nothing
  have hlength : Reads (optionally (isSign ";") (inOrder [sign ";", g.expression true])) [] "" [] :=
    reads_optionally_nothing (by decide)
  rw [List.append_nil] at hitem
  simpa using reads_inOrder_cons hitem (reads_inOrder_cons hlength reads_inOrder_nil)

lemma reads_array {item : PlainType} (h : g.ReadsType item) (length : Nat)
    (hlength : Reads (g.expression true) [leaf (.literal (toString length))] (toString length) [])
    (allowsSum : Bool) :
    Reads (g.readType allowsSum) ((PlainType.array item length).trees follows ++ rest)
      ⟨(PlainType.array item length).text, .other⟩ rest := by
  refine reads_readType_of_brackets ?_ allowsSum
  have hitem := h.anyType true
    (.sign (by decide) false [leaf (.literal (toString length))] : EndsType
      [leaf (.sign ';' false), leaf (.literal (toString length))])
  have hsemicolon : Reads (inOrder [sign ";", g.expression true])
      [leaf (.sign ';' false), leaf (.literal (toString length))]
      (";" ++ (toString length ++ "")) [] :=
    reads_inOrder_cons (reads_sign rfl) (reads_inOrder_cons hlength reads_inOrder_nil)
  have hisSign : isSign ";" [leaf (.sign ';' false), leaf (.literal (toString length))] = true :=
    isSign_self rfl
  have hall := reads_inOrder_cons hitem
    (reads_inOrder_cons (reads_optionally hisSign hsemicolon) reads_inOrder_nil)
  simpa [String.append_assoc] using hall

/-- A type of several in parentheses is a tuple. -/
lemma reads_readType_of_parentheses {t : PlainType} {inner : List Tree} {more : String}
    (h : g.ReadsType t) (hends : EndsType inner) (hne : more ≠ "")
    (hmore : Reads (optionally (isSign ",") g.tupleRest) inner more []) (allowsSum : Bool) :
    Reads (g.readType allowsSum) (group .parentheses (t.trees true ++ inner) :: rest)
      ⟨Delimiter.parentheses.enclose (t.text ++ more), .other⟩ rest := by
  refine reads_get ((reads_optionally_nothing rfl).bind (reads_get ?_))
  rw [if_pos (isGroup_self _ _ rest)]
  refine reads_get ?_
  have hstart := startsType_trees t true inner
  have hmark : isSign "?" (t.trees true ++ inner) = false := hstart.isSign_eq_false rfl
  simp only [between, hstart.isLifetime_eq_false, hmark, hstart.isEmpty_eq_false,
    Bool.false_eq_true, if_false]
  refine Reads.bind (reads_inside ((h true inner hends).bind (hmore.bind (reads_pure _ [])))) ?_
  simp only [bne_iff_ne, ne_eq, hne, not_false_eq_true, if_true]
  exact reads_pure _ rest

lemma reads_tuple {first : PlainType} {others : List PlainType} (h : g.ReadsType first)
    (hothers : ∀ t ∈ others, g.ReadsType t) (allowsSum : Bool) :
    Reads (g.readType allowsSum) ((tuple first others).trees follows ++ rest)
      ⟨(tuple first others).text, .other⟩ rest := by
  have hlist : Reads (separatedUpTo "," List.isEmpty g.anyType (treesOf false others).length)
      (treesOf false others ++ []) (withCommas (others.map PlainType.text)) [] :=
    reads_treesOf (fun _ hts => hts.isEmpty_eq_false) false
      (fun t ht follows _ hends => (hothers t ht).anyType follows hends) .nothing rfl rfl
      (length_le_length_treesOf others false)
  rw [List.append_nil] at hlist
  have hcommas : Reads (commaList g.anyType) (treesOf false others)
      (",".intercalate (textsOf others)) [] := by
    rw [textsOf_eq_map, ← join_withCommas]
    exact (reads_get hlist).bind (reads_pure _ [])
  have hmore : Reads (optionally (isSign ",") g.tupleRest)
      (leaf (.sign ',' false) :: treesOf false others)
      ("," ++ (",".intercalate (textsOf others) ++ "")) [] :=
    reads_optionally (isSign_self rfl)
      (reads_inOrder_cons (reads_sign rfl) (reads_inOrder_cons hcommas reads_inOrder_nil))
  have htext : (tuple first others).text = Delimiter.parentheses.enclose
      (first.text ++ ("," ++ (",".intercalate (textsOf others) ++ ""))) := by
    simp [PlainType.text, String.append_assoc]
  rw [htext]
  exact reads_readType_of_parentheses h (.sign (by decide) _ _) (by simp) hmore allowsSum

end

/-! ### Unrolled grammars -/

/-- A literal is an expression. -/
lemma reads_literal {l : String} (h : isKnownLiteral l = true) :
    Reads (g.readExpression true) [leaf (.literal l)] l [] := by
  have hlength : literalLength [leaf (.literal l)] = 1 := if_pos h
  have hisLiteral : isLiteral [leaf (.literal l)] = true := by
    rw [isLiteral, hlength]
    rfl
  have hliteral : Reads literal [leaf (.literal l)] l [] := by
    have htake : Reads (take 1) [leaf (.literal l)] (textOfList [leaf (.literal l)]) [] := rfl
    rw [textOfList, textOfList, String.append_empty] at htake
    refine reads_get ?_
    rw [hlength, if_neg nofun]
    exact htake
  have hatom : Reads (g.atom true) [leaf (.literal l)] { text := l } [] := by
    refine reads_get ?_
    rw [if_pos hisLiteral]
    exact hliteral.bind (reads_pure _ [])
  have hattributes : Reads attributes [leaf (.literal l)] "" [leaf (.literal l)] := rfl
  have htrailers : Reads (g.withTrailers { text := l }) [] { text := l } [] := rfl
  have hoperand : Reads (g.readOperand true) [leaf (.literal l)] { text := "" ++ l } [] := by
    refine reads_get (hattributes.bind (reads_get ?_))
    rw [if_neg nofun, if_neg nofun]
    refine hatom.bind (htrailers.bind ?_)
    rw [if_neg nofun]
    exact reads_pure _ []
  have hoperations : Reads (g.operations true false) [] [] [] := rfl
  have htext : "" ++ l ++ operationsText [] = l := by simp [operationsText]
  refine hoperand.bind (hoperations.bind ?_)
  rw [htext]
  exact reads_pure l []

lemma unroll_succ (g : Grammar) (n : Nat) : g.unroll (n + 1) = (g.unroll n).step := by
  induction n generalizing g with
  | zero => rfl
  | succ n ih => rw [unroll, ih, unroll]

lemma level_succ (n : Nat) : level (n + 1) = (level n).step :=
  unroll_succ nothing n

end Grammar

namespace PlainType

open Grammar Rule

mutual

/-- A grammar that is unrolled as often as a type is deep reads the type. -/
lemma readsType_level : ∀ (t : PlainType) {n : Nat}, t.depth ≤ n → (level n).ReadsType t
  | t, 0, h => absurd h (Nat.not_le.mpr t.one_le_depth)
  | path first further arguments, n + 1, h => fun follows rest hends => by
    rw [level_succ]
    exact reads_path (readsType_level_of_mem arguments (Nat.le_of_succ_le_succ h)) hends true
  | slice item, n + 1, h => fun follows rest _ => by
    rw [level_succ]
    exact reads_slice (readsType_level item (Nat.le_of_succ_le_succ h)) true
  | array item length, n + 1, h => fun follows rest _ => by
    have hitem : item.depth ≤ n := Nat.le_of_succ_le_succ h
    have hlength : Reads ((level n).expression true) [leaf (.literal (toString length))]
        (toString length) [] := by
      have hn : 1 ≤ n := item.one_le_depth.trans hitem
      obtain ⟨k, rfl⟩ := Nat.exists_eq_succ_of_ne_zero (Nat.ne_of_gt hn)
      rw [level_succ]
      exact reads_literal (isKnownLiteral_toString length)
    rw [level_succ]
    exact reads_array (readsType_level item hitem) length hlength true
  | tuple first others, n + 1, h => fun follows rest _ => by
    have hdepth : max first.depth (depthOf others) ≤ n := Nat.le_of_succ_le_succ h
    rw [level_succ]
    exact reads_tuple (readsType_level first ((Nat.le_max_left _ _).trans hdepth))
      (readsType_level_of_mem others ((Nat.le_max_right _ _).trans hdepth)) true

lemma readsType_level_of_mem : ∀ (ts : List PlainType) {n : Nat}, depthOf ts ≤ n →
    ∀ t ∈ ts, (level n).ReadsType t
  | [], _, _ => nofun
  | t :: ts, n, h => by
    have hdepth : max t.depth (depthOf ts) ≤ n := h
    exact List.forall_mem_cons.mpr ⟨readsType_level t ((Nat.le_max_left _ _).trans hdepth),
      readsType_level_of_mem ts ((Nat.le_max_right _ _).trans hdepth)⟩

end

/-- **The normal form of a type.**  A type in writing is its own normal form, and it is told whether
it is a path. -/
theorem typeOf_text (t : PlainType) : typeOf t.text = .ok ⟨t.text, t.form⟩ := by
  obtain ⟨hscan, hpaired⟩ := ofLexemes?_scan_text t
  have hdepth : t.depth ≤ 2 * (lexemesOf (t.trees false)).length + 8 := by
    have h := depth_le t false
    omega
  have hread := readsType_level t hdepth false [] .nothing
  rw [List.append_nil] at hread
  have hrun : ((level (2 * (lexemesOf (t.trees false)).length + 8)).type true).run (t.trees false) =
      .ok (⟨t.text, t.form⟩, []) := hread
  rw [hscan] at hpaired
  rw [typeOf, hscan, hpaired]
  simp only [hrun]
  rfl

end PlainType

/-- **Types are read back.**  A type in writing is read as it is written, with the last name of its
path if it is one, and nothing in it prevents reading. -/
theorem FieldType.ofText_text (t : PlainType) :
    FieldType.ofText t.text = ⟨t.text, t.lastName?, true⟩ := by
  have hspaces : withoutSpaces t.text = t.text := by
    rw [withoutSpaces, List.filter_eq_self.mpr fun c hc => by simpa using t.ne_space c hc]
    exact String.ofList_toList
  have hlast : segmentOf? t.form = t.lastName? := by
    cases t with
    | path first further arguments => exact PlainType.last?_segments first further _
    | slice | array | tuple => rfl
  rw [ofText, t.typeOf_text]
  simp only [hspaces, hlast]

/-- So of a path of names the last one is read, whatever its arguments are. -/
theorem FieldType.lastSegment?_ofPath (first : PlainName) (further : List PlainName)
    (arguments : List PlainType) :
    (FieldType.ofPath ((first :: further).map (·.text))
      (PlainType.angled (PlainType.textsOf arguments))).lastSegment? =
      some ((first :: further).getLast nofun).text :=
  congrArg FieldType.lastSegment? (FieldType.ofText_text (.path first further arguments))

end MemoKey.Derive
