import Mathlib.Algebra.Order.BigOperators.Group.Finset
import MemoKey.Extractor
import MemoKey.Proofs.Requests

/-!
# The cache of layouts

An extractor is shared: by programs that ask it for layouts and take objects apart, and by
generators that make keys.  All of them look up layouts in one cache, and each counts on its own.
The cache does not show in what they get, and what it holds and what they have counted can be told
from the types that have been asked for.

## Histories

`Request.log` are the requests that a history makes, one after the other, and `Request.outcomes`
tells for each of them whether there was one for its type before.

## What is remembered

`LayoutCache.Holds` says that a cache holds the layouts of some types, and `Extractor.Counts` that
users have counted requests as they came out.  Both are part of `Extractor.Records`.  It is shown
for one request (`Extractor.Records.request`), then for all the acts of a walk, for one use of an
extractor (`Extractor.Records.ask`) and for any number of them (`Extractor.Records.run`).

The main statement is `Extractor.cache_transparent_and_exact`.
-/

namespace MemoKey

variable {ω : Type}

/-! ## Histories -/

/-- A request for a layout. -/
structure Request where
  who : Nat
  info : TypeInfo

/-- The types whose layouts one use of an extractor asks for, in order. -/
def Inquiry.requests : Inquiry ω → List TypeInfo
  | layout info => [info]
  | extract object => [object.type]
  | key _ config store call => config.requests store call

namespace Request

/-- The requests that a history makes, in order. -/
def log (history : List (Nat × Inquiry ω)) : List Request :=
  history.flatMap fun use => use.2.requests.map (Request.mk use.1)

/-- The types that are asked for. -/
def types (log : List Request) : List TypeInfo :=
  log.map (·.info)

/-- Who makes each request, and whether one for the same type came before it. -/
def outcomes (log : List Request) : List (Nat × Bool) :=
  log.mapIdx fun i r => (r.who, decide (r.info ∈ types (log.take i)))

lemma types_append (log more : List Request) : types (log ++ more) = types log ++ types more :=
  List.map_append

/-- A request that is added does not change how the earlier ones came out. -/
lemma outcomes_concat (log : List Request) (r : Request) :
    outcomes (log ++ [r]) = outcomes log ++ [(r.who, decide (r.info ∈ types log))] := by
  unfold outcomes
  rw [List.mapIdx_append]
  have hearlier :
      (log.mapIdx fun i r' => (r'.who, decide (r'.info ∈ types ((log ++ [r]).take i)))) =
      log.mapIdx fun i r' => (r'.who, decide (r'.info ∈ types (log.take i))) := by
    refine List.ext_getElem (by simp) fun i hi _ => ?_
    have hle : i ≤ log.length := by
      rw [List.length_mapIdx] at hi
      exact hi.le
    simp only [List.getElem_mapIdx, List.take_append_of_le_length hle]
  rw [hearlier]
  simp

/-- Requests that are the first for their types belong to some user. -/
lemma sum_count_outcomes {outcomes : List (Nat × Bool)} {users : Finset Nat}
    (h : ∀ o ∈ outcomes, o.1 ∈ users) :
    ∑ who ∈ users, outcomes.count (who, false) = outcomes.countP fun o => !o.2 := by
  induction outcomes with
  | nil => simp
  | cons o rest ih =>
    obtain ⟨ho, hrest⟩ := List.forall_mem_cons.mp h
    obtain ⟨who, known⟩ := o
    have hone : ∑ other ∈ users, (if ((who, known) == (other, false)) = true then 1 else 0) =
        if known then 0 else 1 := by
      cases known <;> simp [ho]
    simp only [List.count_cons, List.countP_cons, Finset.sum_add_distrib, ih hrest, hone]
    cases known <;> rfl

end Request

/-! ## What an extractor remembers -/

/-- What comes of one use if nothing is kept: layouts are computed, objects are read slot by slot,
and generators are new. -/
def Inquiry.reply [OpaqueValue ω] : Inquiry ω → Reply ω
  | layout info => .layout info.layout
  | extract object =>
    .extract <| (object.readAll object.type.layout).map fun values =>
      ⟨object.type.name, object.type.layout, values⟩
  | key kind config store call =>
    .key (Generator.answer { kind, config, cache := 0 } store .empty call).1

/-- A cache holds the layouts of some types: one entry for each of them, with the layout of the
type, and none for any other. -/
structure LayoutCache.Holds (cache : LayoutCache) (types : List TypeInfo) : Prop where
  nodup : (cache.entries.map (·.1)).Nodup
  find?_eq : ∀ info, cache.find? info = if info ∈ types then some info.layout else none
  size_eq : cache.size = types.toFinset.card

namespace LayoutCache

variable {cache : LayoutCache} {types : List TypeInfo} {info : TypeInfo}

lemma holds_empty : empty.Holds [] :=
  ⟨List.nodup_nil, fun _ => rfl, rfl⟩

lemma find?_ne_none_of_mem (h : info ∈ cache.entries.map (·.1)) : cache.find? info ≠ none := by
  intro hnone
  obtain ⟨e, he, rfl⟩ := List.mem_map.mp h
  have hne : (e.1 != e.1) = true := List.lookup_eq_none_iff.mp hnone e he
  simp at hne

/-- Another request for a type that is there changes nothing. -/
lemma Holds.of_mem (h : cache.Holds types) (hmem : info ∈ types) :
    cache.Holds (types ++ [info]) := by
  refine ⟨h.nodup, fun other => ?_, ?_⟩
  · have hother : other ∈ types ++ [info] ↔ other ∈ types := by
      rw [List.mem_append, List.mem_singleton]
      exact or_iff_left_of_imp fun heq => heq ▸ hmem
    rw [h.find?_eq]
    simp only [hother]
  · have hsame : (types ++ [info]).toFinset = types.toFinset := by simp [hmem]
    rw [h.size_eq, hsame]

/-- The layout of a type that is not there is added. -/
lemma Holds.of_notMem (h : cache.Holds types) (hnew : info ∉ types) :
    (cache.insert info).Holds (types ++ [info]) := by
  have hnone : cache.find? info = none := by rw [h.find?_eq, if_neg hnew]
  refine ⟨?_, fun other => ?_, ?_⟩
  · rw [entries_insert hnone]
    exact List.nodup_cons.mpr ⟨fun hmem => find?_ne_none_of_mem hmem hnone, h.nodup⟩
  · rw [find?_insert, h.find?_eq]
    by_cases hother : other = info
    · subst hother
      simp
    · simp [hother]
  · have hset : (types ++ [info]).toFinset = Insert.insert info types.toFinset := by
      ext other
      simp
    rw [hset, Finset.card_insert_of_notMem (by simpa using hnew), ← h.size_eq, size_insert hnone]

/-- A request for a layout is a hit if the type has been asked for, and otherwise a miss. -/
lemma Holds.layout_eq {s : Session} (h : s.layouts.Holds types) (info : TypeInfo) :
    (s.layout info).2 =
      if info ∈ types then s.record .recordHit
      else { s.record .recordMiss with layouts := s.layouts.insert info } := by
  rw [Session.layout, h.find?_eq]
  by_cases hmem : info ∈ types
  · rw [if_pos hmem, if_pos hmem]
  · rw [if_neg hmem, if_neg hmem]

end LayoutCache

/-- Every user has counted as misses the requests that were the first for their types, and as hits
all others. -/
def Extractor.Counts (e : Extractor) (log : List Request) : Prop :=
  ∀ who, (e.counters who).misses = .ofNat ((Request.outcomes log).count (who, false)) ∧
    (e.counters who).hits = .ofNat ((Request.outcomes log).count (who, true))

/-- An extractor remembers the requests of a log. -/
structure Extractor.Records (e : Extractor) (log : List Request) : Prop where
  holds : e.layouts.Holds (Request.types log)
  counts : e.Counts log
  total : e.layouts.size = (Request.outcomes log).countP fun o => !o.2

namespace Extractor

variable {e : Extractor} {who : Nat} {s : Session} {log : List Request}

lemma update_session (e : Extractor) (who : Nat) : e.update who (e.session who) = e := by
  have hcounters : (fun n => if n = who then e.counters who else e.counters n) = e.counters :=
    funext fun n => by
      by_cases h : n = who
      · rw [if_pos h, h]
      · rw [if_neg h]
  rw [update, session]
  exact congrArg (Extractor.mk e.layouts) hcounters

lemma records_new : ({} : Extractor).Records [] :=
  ⟨LayoutCache.holds_empty, fun _ => ⟨rfl, rfl⟩, rfl⟩

/-- Counters that say the same about layouts are as good. -/
lemma Records.of_counters (h : (e.update who s).Records log) {c : Counters}
    (hmisses : c.misses = s.counters.misses) (hhits : c.hits = s.counters.hits) :
    (e.update who { s with counters := c }).Records log := by
  refine ⟨h.holds, fun n => ?_, h.total⟩
  have hn := h.counts n
  by_cases heq : n = who
  · simpa only [update, if_pos heq, hmisses, hhits] using hn
  · simpa only [update, if_neg heq] using hn

/-- A request that is recorded with its outcome is counted for the user who made it. -/
lemma Counts.concat (h : (e.update who s).Counts log) {info : TypeInfo} {known : Bool}
    (hknown : decide (info ∈ Request.types log) = known) {s' : Session}
    (hs' : s'.counters = if known then s.counters.recordHit else s.counters.recordMiss) :
    (e.update who s').Counts (log ++ [⟨who, info⟩]) := by
  intro n
  have hn := h n
  rw [Request.outcomes_concat, hknown, List.count_append, List.count_append, UInt64.ofNat_add,
    UInt64.ofNat_add]
  by_cases heq : n = who
  · subst heq
    simp only [update, if_pos] at hn ⊢
    rw [hs', ← hn.1, ← hn.2]
    cases known <;> simp [Counters.recordHit, Counters.recordMiss]
  · have hother (b : Bool) : [(who, known)].count (n, b) = 0 :=
      List.count_eq_zero.mpr fun hmem => heq (congrArg Prod.fst (List.mem_singleton.mp hmem))
    simp only [update, if_neg heq, hother] at hn ⊢
    simpa using hn

/-- One request for a layout. -/
lemma Records.request (h : (e.update who s).Records log) (info : TypeInfo) :
    (e.update who (s.layout info).2).Records (log ++ [⟨who, info⟩]) := by
  have htypes : Request.types (log ++ [⟨who, info⟩]) = Request.types log ++ [info] :=
    Request.types_append log _
  have hholds : s.layouts.Holds (Request.types log) := h.holds
  rw [hholds.layout_eq]
  by_cases hmem : info ∈ Request.types log
  · rw [if_pos hmem]
    refine ⟨htypes ▸ hholds.of_mem hmem, Counts.concat h.counts (decide_eq_true hmem) rfl, ?_⟩
    rw [Request.outcomes_concat, List.countP_append, ← h.total, decide_eq_true hmem]
    rfl
  · rw [if_neg hmem]
    refine ⟨htypes ▸ hholds.of_notMem hmem, Counts.concat h.counts (decide_eq_false hmem) rfl, ?_⟩
    have hnone : s.layouts.find? info = none := by rw [hholds.find?_eq, if_neg hmem]
    rw [Request.outcomes_concat, List.countP_append, ← h.total, decide_eq_false hmem]
    exact LayoutCache.size_insert hnone

/-- One act of a walk. -/
lemma Records.act (h : (e.update who s).Records log) (a : Act ω) :
    (e.update who (a.onSession s)).Records (log ++ a.requested?.toList.map (Request.mk who)) := by
  cases a with
  | report event =>
    have hcounts : (event.tally s.counters).misses = s.counters.misses ∧
        (event.tally s.counters).hits = s.counters.hits := by
      cases event with
      | opens composite => cases composite <;> exact ⟨rfl, rfl⟩
      | _ => exact ⟨rfl, rfl⟩
    change (e.update who { s with counters := event.tally s.counters }).Records (log ++ [])
    rw [List.append_nil]
    exact h.of_counters hcounts.1 hcounts.2
  | request info => exact h.request info
  | enter | exit =>
    change (e.update who s).Records (log ++ [])
    rwa [List.append_nil]

/-- All acts of a walk. -/
lemma Records.acts (h : (e.update who s).Records log) (acts : List (Act ω)) :
    (e.update who (acts.foldl Act.onSession s)).Records
      (log ++ (acts.filterMap Act.requested?).map (Request.mk who)) := by
  induction acts generalizing s log with
  | nil => simpa using h
  | cons a rest ih =>
    have hrest := ih (h.act a)
    rw [List.append_assoc, ← List.map_append] at hrest
    rw [List.foldl_cons]
    cases hrequested : a.requested? with
    | none => simpa [hrequested, List.filterMap_cons] using hrest
    | some info => simpa [hrequested, List.filterMap_cons] using hrest

variable [OpaqueValue ω]

/-- **One use of an extractor.**  Whoever it is and whatever comes of it, what is remembered are the
requests that the use makes. -/
theorem Records.ask (h : e.Records log) (who : Nat) (inquiry : Inquiry ω) :
    (e.ask who inquiry).2.Records (log ++ inquiry.requests.map (Request.mk who)) := by
  have hstart : (e.update who (e.session who)).Records log := by rwa [update_session]
  cases inquiry with
  | layout info => exact hstart.request info
  | extract object => exact hstart.request object.type
  | key kind c store call =>
    have hwalked := hstart.acts (c.callTrace store call).acts
    change (e.update who (Generator.answer _ store e.layouts call).2).Records _
    rw [Generator.answer_eq, Config.sessionAfter_eq]
    cases c.report store call with
    | error halt => exact hwalked
    | ok events => exact hwalked.of_counters rfl rfl

/-- **Any number of uses.** -/
theorem Records.run (h : e.Records log) (history : List (Nat × Inquiry ω)) :
    (e.run history).2.Records (log ++ Request.log history) := by
  induction history generalizing e log with
  | nil => simpa [Request.log, run] using h
  | cons use rest ih =>
    have hrest := ih (h.ask use.1 use.2)
    rw [List.append_assoc] at hrest
    exact hrest

/-! ## What comes of a history -/

/-- What comes of one use does not depend on who it is, on the cache or on the counters. -/
lemma ask_fst (e : Extractor) (who : Nat) (inquiry : Inquiry ω) :
    (e.ask who inquiry).1 = inquiry.reply := by
  cases inquiry with
  | layout info => exact congrArg Reply.layout (Session.layout_fst _ info)
  | extract object =>
    have hextract : ((e.session who).extract object).1 =
        (object.readAll object.type.layout).map fun values =>
          ⟨object.type.name, object.type.layout, values⟩ := by
      simp only [Session.extract, Session.layout_fst]
    exact congrArg Reply.extract hextract
  | key kind c store call =>
    let generator : Generator := { kind, config := c, cache := 0, counters := e.counters who }
    have hanswer : (generator.answer store e.layouts call).1 =
        (Generator.answer { kind, config := c, cache := 0 } store .empty call).1 := by
      rw [Generator.answer_eq, Generator.answer_eq]
    exact congrArg Reply.key hanswer

lemma run_fst (e : Extractor) (history : List (Nat × Inquiry ω)) :
    (e.run history).1 = history.map fun use => use.2.reply := by
  induction history generalizing e with
  | nil => rfl
  | cons use rest ih =>
    rw [List.map_cons, ← ih (e.ask use.1 use.2).2, ← e.ask_fst use.1 use.2]
    rfl

/-- All misses together are the layouts that are kept. -/
lemma Records.sum_misses (h : e.Records log) {users : Finset Nat}
    (husers : ∀ r ∈ log, r.who ∈ users) :
    ∑ who ∈ users, (Request.outcomes log).count (who, false) = e.layouts.size := by
  rw [h.total]
  refine Request.sum_count_outcomes fun o ho => ?_
  obtain ⟨i, hi, rfl⟩ := List.mem_mapIdx.mp ho
  exact husers _ (List.getElem_mem hi)

/-- **The cache of layouts does not show, and keeps what it should.**  Take any uses of a new
extractor by any users, with success or without.  What comes of each is what comes of it if nothing
is kept; a layout has the fields that the type declares itself and that are not synthetic, then the
layout of its parent.  The cache has one entry for each type that has been asked for, which is the
layout of this type, and no other.  Every user has counted a miss for each request that was the
first one for its type, and a hit for every other one, also if what the layout was needed for failed
afterwards.  So the misses of all users together, as far as 64 bits can tell, are the layouts that
are kept. -/
theorem cache_transparent_and_exact (history : List (Nat × Inquiry ω)) :
    let replies := (({} : Extractor).run history).1
    let now := (({} : Extractor).run history).2
    let log := Request.log history
    (replies = history.map (fun use => use.2.reply) ∧
      ∀ info : TypeInfo, info.layout =
        ((info.fields.filter fun field => !field.synthetic).map fun field => ⟨info, field.name⟩) ++
          (info.parent?.map TypeInfo.layout).getD []) ∧
    now.layouts.Holds (Request.types log) ∧
    now.Counts log ∧
    (∀ (who : Nat) (info : TypeInfo) (inquiry : Inquiry ω),
      (inquiry = .layout info ∨ ∃ object, object.type = info ∧ inquiry = .extract object) →
        (now.ask who inquiry).2.counters who =
          if info ∈ Request.types log then (now.counters who).recordHit
          else (now.counters who).recordMiss) ∧
    (∀ users : Finset Nat, (∀ use ∈ history, use.1 ∈ users) →
      ∑ who ∈ users, (now.counters who).misses.toNat ≡ now.layouts.size [MOD 2 ^ 64] ∧
        (now.layouts.size < 2 ^ 64 →
          ∑ who ∈ users, (now.counters who).misses.toNat = now.layouts.size)) ∧
    ∀ (kind : Derivation) (c : Config) (store : Store ω) (call : Invocation ω),
      c.report store call ≠ .error .endless →
        (Inquiry.key kind c store call).requests =
          match (c.signatureEvents call.signature : Except Fault (List (Event ω))) with
          | .error _ => []
          | .ok _ =>
            (through Cell.isUnreadable (c.preorder store call store.size)).filterMap
              Cell.type? := by
  intro replies now log
  have hrecords : now.Records log := records_new.run history
  refine ⟨⟨run_fst {} history, fun info => ?_⟩, hrecords.holds, hrecords.counts, ?_, ?_, ?_⟩
  · cases info with
    | root decl => simp [TypeInfo.ownSlots, TypeInfo.parent?]
    | extending decl parent => simp [TypeInfo.ownSlots, TypeInfo.parent?]
  · intro who info inquiry hinquiry
    have hlayout : (now.ask who inquiry).2 = now.update who ((now.session who).layout info).2 := by
      rcases hinquiry with rfl | ⟨object, rfl, rfl⟩ <;> rfl
    have hholds : (now.session who).layouts.Holds (Request.types log) := hrecords.holds
    rw [hlayout, hholds.layout_eq]
    simp only [update, if_true]
    split <;> rfl
  · intro users husers
    have hlog : ∀ r ∈ log, r.who ∈ users := fun r hr => by
      obtain ⟨use, huse, hmem⟩ := List.mem_flatMap.mp hr
      obtain ⟨info, _, rfl⟩ := List.mem_map.mp hmem
      exact husers use huse
    have hsum := hrecords.sum_misses hlog
    have hmisses (who : Nat) : (now.counters who).misses.toNat =
        (Request.outcomes log).count (who, false) % 2 ^ 64 := by
      rw [(hrecords.counts who).1, UInt64.toNat_ofNat']
    simp only [hmisses]
    refine ⟨?_, fun hsize => ?_⟩
    · rw [← hsum]
      exact (Finset.sum_nat_mod users (2 ^ 64) _).symm
    · rw [← hsum] at hsize ⊢
      refine Finset.sum_congr rfl fun who hwho => Nat.mod_eq_of_lt ?_
      exact (Finset.single_le_sum (fun _ _ => Nat.zero_le _) hwho).trans_lt hsize
  · intro kind c store call hends
    exact c.requests_eq hends

/-- Two types share a name, and one of them extends the other.  The first object cannot be read, but
its layout is there for the second user; a key that fails at a drawer leaves the layout of the
drawer.  Four layouts are kept, and each user has missed two of them. -/
theorem cache_transparent_and_exact_drawer :
    let base : TypeInfo := .root ⟨1, ⟨"tests::Base"⟩, [{ name := "id" }]⟩
    let renamed : TypeInfo := .root ⟨2, ⟨"tests::Base"⟩, [{ name := "id" }, { name := "extra" }]⟩
    let derived : TypeInfo :=
      .extending
        ⟨3, ⟨"tests::Derived"⟩, [{ name := "label" }, { name := "tag", synthetic := true }]⟩ base
    let inside : Config := { Config.argumentsOnly with useReflection := true }
    let history : List (Nat × Inquiry Datum) :=
      [(0, .extract ⟨derived, fun _ => none⟩), (1, .layout derived), (1, .layout base),
        (0, .extract ⟨renamed, fun _ => some .null⟩),
        (1, .key .structural inside (Store.drawer none) { arguments := [.ref .object ⟨0⟩] })]
    let now := (({} : Extractor).run history).2
    (now.ask 7 (.extract ⟨derived, fun _ => none⟩ : Inquiry Datum)).1 =
        .extract (.error (.fieldAccess "tests::Derived" "label")) ∧
      now.layouts.find? derived = some [⟨derived, "label"⟩, ⟨base, "id"⟩] ∧
      (now.layouts.size = 4 ∧ (now.counters 0).misses = 2 ∧ (now.counters 0).hits = 0 ∧
        (now.counters 1).misses = 2 ∧ (now.counters 1).hits = 1) ∧
      (now.ask 7 (.layout base : Inquiry Datum)).2.counters 7 = ({} : Counters).recordHit ∧
      ∑ who ∈ {0, 1}, (now.counters who).misses.toNat = now.layouts.size := by
  intro base renamed derived inside history now
  obtain ⟨-, hholds, -, hone, htotal, -⟩ := cache_transparent_and_exact history
  have hasked : base ∈ Request.types (Request.log history) ∧
      derived ∈ Request.types (Request.log history) := by decide
  refine ⟨rfl, ?_, by decide, ?_, ?_⟩
  · exact (hholds.find?_eq derived).trans (if_pos hasked.2)
  · exact (hone 7 base _ (.inl rfl)).trans (if_pos hasked.1)
  · exact (htotal {0, 1} (by simp [history])).2 (by decide)

end Extractor

end MemoKey
