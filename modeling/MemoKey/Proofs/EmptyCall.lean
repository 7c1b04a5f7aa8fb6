import MemoKey.Proofs.Horner
import MemoKey.Proofs.Position

/-!
# The hash key of the empty call

Without a signature a call without arguments has nothing to take into its hash, so its key is what
every hash starts from.  A call with arguments may come back to this number: a hash of 64 bits keeps
no value for the empty call alone, and one 32-bit integer is enough to meet it
(`Config.not_hashKey_ne_empty`).

How often this happens can be said exactly.  By Horner's rule the words of the arguments have to
solve one equation modulo `2 ^ 64`.  In it every argument has a single solution once the others are
fixed, because 31 can be divided by (`Hash.exists_step_iff`).

The main statement is `Config.hashKey_eq_seed_iff`.
-/

namespace MemoKey

variable {ω : Type}

namespace Hash

/-- An accumulator can be found that a list of words takes to a given hash. -/
lemma extend_left_surjective (words : List Hash) :
    Function.Surjective fun acc => extend acc words := by
  induction words with
  | nil => exact Function.surjective_id
  | cons word rest ih =>
    intro hash
    obtain ⟨acc, hacc⟩ := ih hash
    refine ⟨(acc - word) * inverse31, ?_⟩
    have hinverse : inverse31 * 31 = 1 := by decide
    have hstep : step ((acc - word) * inverse31) word = acc := by
      rw [step, Int64.mul_assoc, hinverse, Int64.mul_one, Int64.sub_add_cancel]
    change extend (step _ word) rest = hash
    rw [hstep]
    exact hacc

/-- Of all words exactly one, taken between others, leads to a given hash. -/
lemma exists_step_iff (acc hash : Hash) (rest : List Hash) :
    ∃ word, ∀ other, extend (step acc other) rest = hash ↔ other = word := by
  obtain ⟨after, hafter⟩ := extend_left_surjective rest hash
  have hstep : step acc (after - acc * 31) = after := by
    rw [step, Int64.add_comm, Int64.sub_add_cancel]
  refine ⟨after - acc * 31, fun other => ⟨fun h => ?_, ?_⟩⟩
  · have hsame : step acc other = step acc (after - acc * 31) := by
      rw [hstep]
      exact extend_left_injective rest (h.trans hafter.symm)
    exact step_right_injective acc hsame
  · rintro rfl
    rw [hstep]
    exact hafter

/-- The words that lead from the seed back to the seed solve a polynomial equation. -/
lemma ofList_eq_seed_iff (words : List Hash) :
    ofList words = seed ↔
      31 ^ words.length + polynomial (words.map Int64.toInt) ≡ 1 [ZMOD 2 ^ 64] := by
  have hrule := toInt_extend seed words
  have hseed : seed.toInt = 1 := rfl
  rw [hseed, one_mul] at hrule
  rw [eq_iff_toInt_modEq, hseed]
  exact ⟨fun h => hrule.symm.trans h, fun h => hrule.trans h⟩

end Hash

namespace StructuralKey

variable [OpaqueValue ω]

lemma hash_eq_ofList (key : StructuralKey ω) :
    key.hash = Hash.ofList (key.nodes.flatMap Node.words) := by
  rw [hash, Node.itemWords_eq]

/-- At every place among the nodes of a key exactly one contribution leads to a given hash. -/
lemma exists_hash_iff (before after : List (Node ω)) (hash : Hash) :
    ∃ word : Hash, ∀ node : Node ω, ¬ node.IsPrimitiveArray →
      ((mk (before ++ node :: after)).hash = hash ↔ node.contribution = word) := by
  obtain ⟨word, hword⟩ := Hash.exists_step_iff (Hash.ofList (Node.itemWords before)) hash
    (Node.itemWords after)
  refine ⟨word, fun node harray => ?_⟩
  rw [StructuralKey.hash, Node.ofList_itemWords, Node.foldInto_eq, Node.tags_eq_nil harray,
    Hash.extend_nil]
  exact hword node.contribution

/-- The key of a single node has the hash of the empty key if the node contributes thirty below
zero. -/
lemma hash_singleton_eq_seed_iff {node : Node ω} (h : ¬ node.IsPrimitiveArray) :
    (mk [node]).hash = Hash.seed ↔ node.contribution = -30 := by
  have hhash : (mk [node]).hash = Hash.step Hash.seed node.contribution := by
    rw [hash_eq_ofList, List.flatMap_singleton, Node.words, Node.tags_eq_nil h]
    rfl
  have hthirty : Hash.step Hash.seed (-30) = Hash.seed := by decide
  rw [hhash]
  constructor
  · intro hseed
    exact Hash.step_right_injective Hash.seed (hseed.trans hthirty.symm)
  · intro hcontribution
    rw [hcontribution, hthirty]

end StructuralKey

namespace Config

lemma prefixNodes_eq_nil {c : Config} (h : c.includesSignature = false)
    (signature : Option Signature) : (c.prefixNodes signature : List (Node ω)) = [] := by
  obtain ⟨hname, htypes⟩ : c.includeMethodName = false ∧ c.includeSignatureTypes = false := by
    simpa [includesSignature] using h
  cases signature <;> simp [prefixNodes, hname, htypes]

variable [OpaqueValue ω]

/-- **When a call has the hash key of the empty call.**  If no part of a signature is included, the
call without arguments has the same key in every store and session, the seed of all hashes.  A call
with arguments that has a hash key has this one if and only if the words of its arguments solve
`31 ^ n + w₁ * 31 ^ (n - 1) + ⋯ + wₙ = 1` modulo `2 ^ 64`.  With all other arguments fixed that is
the case for exactly one contribution of an argument that is no array of primitives; a single
argument has to contribute `-30`. -/
theorem hashKey_eq_seed_iff {c : Config} (hc : c.includesSignature = false) (store : Store ω) :
    (∀ signature session,
      (c.hashKey store { signature, arguments := [] } session).1 = .ok Hash.seed) ∧
    (∀ call session hash, call.arguments ≠ [] → (c.hashKey store call session).1 = .ok hash →
      ∃ key : StructuralKey ω, (c.structuralKey store call session).1 = .ok key ∧
        key.nodes.length = call.arguments.length ∧
        let words := key.nodes.flatMap Node.words
        hash = Hash.seed ↔
          31 ^ words.length + Hash.polynomial (words.map Int64.toInt) ≡ 1 [ZMOD 2 ^ 64]) ∧
    (∀ before after : List (Node ω), ∃ word : Hash, ∀ node : Node ω, ¬ node.IsPrimitiveArray →
      ((StructuralKey.mk (before ++ node :: after)).hash = Hash.seed ↔
        node.contribution = word)) ∧
    (∀ node : Node ω, ¬ node.IsPrimitiveArray →
      ((StructuralKey.mk [node]).hash = Hash.seed ↔ node.contribution = -30)) := by
  refine ⟨?_, ?_, ?_, ?_⟩
  · intro signature session
    have hhead : c.signatureEvents signature = .ok ([] : List (Event ω)) := by
      simp [signatureEvents, hc]
    rw [hashKey_fst, report, hhead]
    rfl
  · intro call session hash _ hhash
    obtain ⟨key, hkey, rfl⟩ := exists_structuralKey_of_hashKey hhash
    refine ⟨key, hkey, ?_, ?_⟩
    · rw [(structuralKey_eq_ok hkey).2, nodes, prefixNodes_eq_nil hc, List.nil_append,
        List.length_map]
    · rw [StructuralKey.hash_eq_ofList]
      exact Hash.ofList_eq_seed_iff _
  · intro before after
    exact StructuralKey.exists_hash_iff before after Hash.seed
  · intro node harray
    exact StructuralKey.hash_singleton_eq_seed_iff harray

/-- The integer thirty below zero has the key of the empty call, and its successor has not. -/
theorem hashKey_eq_seed_iff_thirty :
    let call (x : Int32) : Invocation Datum := { arguments := [.atom (.primitive (.int32 x))] }
    argumentsOnly.includesSignature = false ∧
      (argumentsOnly.hashKey {} { arguments := ([] : List (Value Datum)) } {}).1 = .ok 1 ∧
      (argumentsOnly.hashKey {} (call (-30)) {}).1 = .ok 1 ∧
      31 ^ 1 + Hash.polynomial [-30] ≡ 1 [ZMOD 2 ^ 64] ∧
      (argumentsOnly.hashKey {} (call (-29)) {}).1 = .ok 2 ∧
      ¬ 31 ^ 1 + Hash.polynomial [-29] ≡ 1 [ZMOD 2 ^ 64] := by
  intro call
  have hc : argumentsOnly.includesSignature = false := rfl
  have hhash : (argumentsOnly.hashKey {} (call (-30)) {}).1 = .ok 1 := rfl
  have hother : (argumentsOnly.hashKey {} (call (-29)) {}).1 = .ok 2 := rfl
  obtain ⟨hempty, hcalls, _⟩ := hashKey_eq_seed_iff (ω := Datum) hc {}
  obtain ⟨key, hkey, _, hiff⟩ := hcalls (call (-30)) {} 1 nofun hhash
  obtain ⟨key', hkey', _, hiff'⟩ := hcalls (call (-29)) {} 2 nofun hother
  cases hkey
  cases hkey'
  exact ⟨hc, hempty none {}, hhash, hiff.mp rfl, hother, mt hiff'.mpr (by decide)⟩

/-- The empty call does not have a hash key of its own. -/
theorem not_hashKey_ne_empty :
    ¬ ∀ (c : Config) (store : Store Datum) (call : Invocation Datum) (session : Session)
      (hash : Hash), c.includesSignature = false → call.arguments ≠ [] →
        (c.hashKey store call session).1 = .ok hash →
        (c.hashKey store { call with arguments := [] } session).1 ≠ .ok hash := by
  intro h
  have hc : argumentsOnly.includesSignature = false := rfl
  let call : Invocation Datum := { arguments := [.atom (.primitive (.int32 (-30)))] }
  exact h argumentsOnly {} call {} 1 hc nofun rfl rfl

end Config

end MemoKey
