import Rite.Proofs.FailedSteps
import Rite.Proofs.HashKeys
import Mathlib.Data.List.Induction

/-!
# Hashes as ordered maps

A hash is a list of pairs, and what is put into it and read from it goes by equality of keys.  That
equality is an equivalence: integers, strings and symbols stand for what they hold, and everything
else stands for itself (`Heap.keyValue`).  A hash whose keys are pairwise unequal is therefore a finite
map that remembers the order of insertion, and one insertion keeps it one (`Heap.Stored`).

Literals, additions and merges of hashes put in a whole list of pairs.  `Heap.collected` says without
going through the list step by step what comes of it: every key stands where it first occurred, as the
handle that occurred there, with the value that was put under it last.
-/

namespace Rite

/-- What a key is compared by. -/
inductive KeyValue where
  | integer (value : Int64)
  | string (text : String)
  | symbol (name : String)
  /-- Nothing but the object itself. -/
  | itself (h : Handle)

/-- What an object with this payload is compared by when it is the key `h`. -/
def Payload.keyValue (h : Handle) : Payload → KeyValue
  | .integer value => .integer value
  | .string text => .string text
  | .symbol name => .symbol name
  | _ => .itself h

namespace Heap

variable {heap heap₁ : Heap} {h key value : Handle} {pairs base : List (Handle × Handle)}

/-! ## Equality of keys -/

/-- What the key `h` is compared by. -/
def keyValue (heap : Heap) (h : Handle) : KeyValue := (heap.get h).payload.keyValue h

/-- Keys are equal if they are compared by the same. -/
theorem keysEqual_iff_keyValue {a b : Handle} :
    heap.keysEqual a b = true ↔ heap.keyValue a = heap.keyValue b := by
  unfold keysEqual keyValue
  by_cases hab : a = b
  · simp [hab]
  · rw [if_neg hab]
    generalize (heap.get a).payload = p, (heap.get b).payload = q
    cases p <;> cases q <;> simp [hab, Payload.keyValue]

theorem keysEqual_equivalence (heap : Heap) :
    Equivalence fun a b => heap.keysEqual a b = true := by
  simp only [keysEqual_iff_keyValue]
  exact ⟨fun _ => rfl, Eq.symm, Eq.trans⟩

theorem keysEqual_comm (heap : Heap) (a b : Handle) : heap.keysEqual a b = heap.keysEqual b a := by
  rw [Bool.eq_iff_iff, keysEqual_iff_keyValue, keysEqual_iff_keyValue]
  exact eq_comm

/-- Equal keys are equal to the same keys. -/
theorem keysEqual_congr {a b : Handle} (hab : heap.keysEqual a b = true) (c : Handle) :
    heap.keysEqual a c = heap.keysEqual b c := by
  rw [Bool.eq_iff_iff, keysEqual_iff_keyValue, keysEqual_iff_keyValue,
    keysEqual_iff_keyValue.mp hab]

/-- No two of the keys are equal. -/
def DistinctKeys (heap : Heap) (pairs : List (Handle × Handle)) : Prop :=
  (pairs.map (·.1)).Pairwise fun a b => heap.keysEqual a b = false

instance : Decidable (heap.DistinctKeys pairs) := by
  unfold DistinctKeys
  infer_instance

/-! ## One insertion -/

theorem lookupPair_insertPair (heap : Heap) (k key value : Handle)
    (pairs : List (Handle × Handle)) :
    heap.lookupPair k (heap.insertPair key value pairs) =
      if heap.keysEqual k key then some value else heap.lookupPair k pairs := by
  induction pairs with
  | nil =>
    simp only [insertPair, lookupPair, heap.keysEqual_comm key k]
  | cons pair rest ih =>
    obtain ⟨k', v'⟩ := pair
    unfold insertPair
    split
    · next hkey =>
      -- The first key equal to `key` is here, so it is the first one equal to `k` if `k` is equal.
      simp only [lookupPair, keysEqual_congr hkey k, heap.keysEqual_comm key k]
      split <;> rfl
    · next hkey =>
      simp only [lookupPair, ih]
      by_cases hk : heap.keysEqual k' k = true
      · have hne : heap.keysEqual k key = false := by
          rw [← keysEqual_congr hk key]
          exact Bool.eq_false_iff.mpr hkey
        simp [hk, hne]
      · simp [hk]

theorem map_fst_insertPair (heap : Heap) (key value : Handle) (pairs : List (Handle × Handle)) :
    (heap.insertPair key value pairs).map (·.1) =
      if pairs.any fun pair => heap.keysEqual pair.1 key then pairs.map (·.1)
      else pairs.map (·.1) ++ [key] := by
  induction pairs with
  | nil => rfl
  | cons pair rest ih =>
    obtain ⟨k, v⟩ := pair
    unfold insertPair
    by_cases hk : heap.keysEqual k key = true
    · simp [hk]
    · simp only [hk, Bool.false_eq_true, if_false, List.map_cons, ih, List.any_cons, Bool.false_or]
      split <;> rfl

theorem DistinctKeys.insertPair (hpairs : heap.DistinctKeys pairs) (key value : Handle) :
    heap.DistinctKeys (heap.insertPair key value pairs) := by
  have hapart : (pairs.map (·.1)).Pairwise (heap.Apart False) :=
    List.Pairwise.imp Apart.of_keysEqual_eq_false hpairs
  refine (pairwise_insertPair key value hapart).imp fun hab => ?_
  rw [Bool.eq_false_iff]
  exact fun hequal => (hab.unequal hequal).1

/-- A hash is no key value, so changing its pairs makes no two keys equal or unequal. -/
theorem keyValue_hashSet (heap : Heap) (h key value : Handle) :
    (heap.hashSet h key value).keyValue = heap.keyValue := by
  funext x
  unfold hashSet
  cases hhash : (heap.get h).hash? with
  | none => rfl
  | some pairs =>
    have hpayload := Object.payload_of_hash? hhash
    show ((heap.modify h _).get x).payload.keyValue x = (heap.get x).payload.keyValue x
    rw [get_modify]
    split
    · next hx =>
      rw [Object.payload_mapPairs hpayload, hx.1, hpayload]
      rfl
    · rfl

theorem keysEqual_hashSet (heap : Heap) (h key value : Handle) :
    (heap.hashSet h key value).keysEqual = heap.keysEqual := by
  funext a b
  rw [Bool.eq_iff_iff, keysEqual_iff_keyValue, keysEqual_iff_keyValue, keyValue_hashSet]

/-- What is inside the heap is still there with other pairs in a hash. -/
theorem get_hashSet (hhash : (heap.get h).hash? = some pairs) (key value x : Handle) :
    (heap.hashSet h key value).get x =
      if x = h then { heap.get h with payload := .hash (heap.insertPair key value pairs) }
      else heap.get x := by
  have hpayload := Object.payload_of_hash? hhash
  have hvalid : h.index < heap.size := index_lt_of_payload (by simp [hpayload])
  have hmap : (heap.get h).mapPairs (fun _ => heap.insertPair key value pairs) =
      { heap.get h with payload := .hash (heap.insertPair key value pairs) } := by
    generalize heap.get h = o at hpayload
    obtain ⟨isa, ivars, singleton, payload⟩ := o
    cases hpayload
    rfl
  simp only [hashSet, hhash, get_modify, hvalid, and_true, hmap]

theorem size_hashSet (heap : Heap) (h key value : Handle) :
    (heap.hashSet h key value).size = heap.size := by
  unfold hashSet
  split
  · exact size_modify _ h _
  · rfl

theorem lookupPair_congr (hkeys : heap₁.keysEqual = heap.keysEqual) (k : Handle)
    (pairs : List (Handle × Handle)) : heap₁.lookupPair k pairs = heap.lookupPair k pairs := by
  induction pairs with
  | nil => rfl
  | cons pair rest ih => simp only [lookupPair, hkeys, ih]

theorem insertPair_congr (hkeys : heap₁.keysEqual = heap.keysEqual) (key value : Handle)
    (pairs : List (Handle × Handle)) :
    heap₁.insertPair key value pairs = heap.insertPair key value pairs := by
  induction pairs with
  | nil => rfl
  | cons pair rest ih => simp only [insertPair, hkeys, ih]

/-- `heap₁` is `heap` with `value` under `key` in the hash at `h`, which held `pairs` before. -/
structure Stored (heap : Heap) (h key value : Handle) (pairs : List (Handle × Handle))
    (heap₁ : Heap) : Prop where
  /-- Only the pairs of the one hash have changed. -/
  size : heap₁.size = heap.size
  others : ∀ x, x ≠ h → heap₁.get x = heap.get x
  /-- The keys stay in their order; a key that was not there yet goes to the end. -/
  hash : ∃ pairs₁, heap₁.get h = { heap.get h with payload := .hash pairs₁ } ∧
    heap₁.DistinctKeys pairs₁ ∧
    pairs₁.map (·.1) =
      if pairs.any fun pair => heap.keysEqual pair.1 key then pairs.map (·.1)
      else pairs.map (·.1) ++ [key]
  found : ∀ k, heap.keysEqual k key = true → heap₁.hashGet? h k = some value
  kept : ∀ k, heap.keysEqual k key = false → heap₁.hashGet? h k = heap.hashGet? h k

theorem stored_hashSet (hhash : (heap.get h).hash? = some pairs) (hpairs : heap.DistinctKeys pairs)
    (key value : Handle) : heap.Stored h key value pairs (heap.hashSet h key value) := by
  have hself := get_hashSet hhash key value h
  rw [if_pos rfl] at hself
  have hget : ∀ k, (heap.hashSet h key value).hashGet? h k =
      if heap.keysEqual k key then some value else heap.hashGet? h k := by
    intro k
    simp only [hashGet?, hself, Object.hash?]
    rw [lookupPair_congr (keysEqual_hashSet heap h key value), lookupPair_insertPair,
      Object.payload_of_hash? hhash]
  refine ⟨size_hashSet heap h key value, fun x hx => ?_, ⟨_, hself, ?_, ?_⟩, fun k hk => ?_,
    fun k hk => ?_⟩
  · rw [get_hashSet hhash, if_neg hx]
  · unfold DistinctKeys
    rw [keysEqual_hashSet]
    exact hpairs.insertPair key value
  · exact map_fst_insertPair heap key value pairs
  · rw [hget, if_pos hk]
  · rw [hget, hk, if_neg Bool.false_ne_true]

/-! ## Many insertions -/

/-- The hash at `h` with pairs put in one after the other. -/
def setPairs (heap : Heap) (h : Handle) (pairs : List (Handle × Handle)) : Heap :=
  pairs.foldl (fun heap pair => heap.hashSet h pair.1 pair.2) heap

/-- The keys without those that are equal to an earlier one. -/
def firstKeys (heap : Heap) : List Handle → List Handle
  | [] => []
  | k :: rest => k :: (heap.firstKeys rest).filter fun x => !heap.keysEqual k x

/-- What comes of putting in pairs: every key where it first occurs, with the value that is put under
it last. -/
def collected (heap : Heap) (pairs : List (Handle × Handle)) : List (Handle × Handle) :=
  (heap.firstKeys (pairs.map (·.1))).map fun k =>
    (k, (heap.lookupPair k pairs.reverse).getD Handle.nil)

theorem firstKeys_concat (heap : Heap) (ks : List Handle) (k : Handle) :
    heap.firstKeys (ks ++ [k]) =
      if ks.any fun x => heap.keysEqual x k then heap.firstKeys ks else heap.firstKeys ks ++ [k] := by
  induction ks with
  | nil => rfl
  | cons x ks ih =>
    simp only [List.cons_append, firstKeys, ih, List.any_cons]
    by_cases hlater : (ks.any fun x => heap.keysEqual x k) = true
    · simp [hlater]
    · by_cases hx : heap.keysEqual x k = true
      · simp [hlater, hx]
      · simp [hlater, hx]

theorem firstKeys_pairwise (heap : Heap) (ks : List Handle) :
    (heap.firstKeys ks).Pairwise fun a b => heap.keysEqual a b = false := by
  induction ks with
  | nil => exact .nil
  | cons k ks ih =>
    refine .cons (fun x hx => ?_) (ih.filter _)
    simpa using (List.mem_filter.mp hx).2

/-- Leaving out repeated keys loses no key. -/
theorem any_firstKeys (heap : Heap) (ks : List Handle) (key : Handle) :
    ((heap.firstKeys ks).any fun x => heap.keysEqual x key) =
      ks.any fun x => heap.keysEqual x key := by
  induction ks with
  | nil => rfl
  | cons k ks ih =>
    simp only [firstKeys, List.any_cons, List.any_filter]
    by_cases hk : heap.keysEqual k key = true
    · simp [hk]
    · rw [← ih]
      -- What is equal to `k` is left out, and is not equal to `key` anyway.
      congr 1
      refine congrArg (fun test => (heap.firstKeys ks).any test) (funext fun x => ?_)
      by_cases hx : heap.keysEqual k x = true
      · have hne : heap.keysEqual x key = false := by
          rw [← keysEqual_congr hx key]
          exact Bool.eq_false_iff.mpr hk
        simp [hx, hne]
      · simp [hx]

/-- Inserting into pairs that are given by distinct keys and a function. -/
theorem insertPair_map {ks : List Handle} (hks : ks.Pairwise fun a b => heap.keysEqual a b = false)
    (key value : Handle) (v : Handle → Handle) :
    heap.insertPair key value (ks.map fun k => (k, v k)) =
      (if ks.any fun k => heap.keysEqual k key then ks else ks ++ [key]).map fun k =>
        (k, if heap.keysEqual key k then value else v k) := by
  have hself : heap.keysEqual key key = true := (heap.keysEqual_equivalence).refl key
  induction hks with
  | nil => simp [insertPair, hself]
  | @cons k ks hk _ ih =>
    simp only [List.map_cons, insertPair, List.any_cons]
    by_cases hkey : heap.keysEqual k key = true
    · have hlater : ∀ x ∈ ks, heap.keysEqual key x = false := by
        intro x hx
        rw [← keysEqual_congr hkey x]
        exact hk x hx
      have hflip : heap.keysEqual key k = true := by rw [keysEqual_comm]; exact hkey
      simp only [hkey, if_true, Bool.true_or, List.map_cons, hflip]
      congr 1
      exact List.map_congr_left fun x hx => by simp [hlater x hx]
    · have hflip : ¬ heap.keysEqual key k = true := by rw [keysEqual_comm]; exact hkey
      simp only [hkey, Bool.false_eq_true, if_false, Bool.false_or, ih]
      split <;> simp [hflip]

theorem collected_concat (heap : Heap) (pairs : List (Handle × Handle)) (key value : Handle) :
    heap.collected (pairs ++ [(key, value)]) = heap.insertPair key value (heap.collected pairs) := by
  unfold collected
  rw [insertPair_map (firstKeys_pairwise heap _), any_firstKeys, List.map_append, List.map_singleton,
    firstKeys_concat]
  refine List.map_congr_left fun k _ => ?_
  rw [List.reverse_append, List.reverse_singleton, List.singleton_append, lookupPair]
  split <;> rfl

/-- A key that is equal to none of the others goes to the end. -/
theorem insertPair_of_new (hnew : ∀ pair ∈ pairs, heap.keysEqual pair.1 key = false) :
    heap.insertPair key value pairs = pairs ++ [(key, value)] := by
  induction pairs with
  | nil => rfl
  | cons pair rest ih =>
    have hpair := hnew pair List.mem_cons_self
    have hrest := ih fun pair hp => hnew pair (List.mem_cons_of_mem _ hp)
    simp [insertPair, hpair, hrest]

/-- Pairs with distinct keys are collected as they are. -/
theorem DistinctKeys.collected_eq (hpairs : heap.DistinctKeys pairs) :
    heap.collected pairs = pairs := by
  induction pairs using List.reverseRecOn with
  | nil => rfl
  | append_singleton pairs pair ih =>
    obtain ⟨key, value⟩ := pair
    unfold DistinctKeys at hpairs
    rw [List.map_append, List.pairwise_append] at hpairs
    obtain ⟨hfirst, _, hlast⟩ := hpairs
    rw [collected_concat, ih hfirst]
    refine insertPair_of_new fun pair hp => ?_
    exact hlast _ (List.mem_map_of_mem hp) _ (List.mem_singleton_self _)

/-- Putting pairs behind distinct ones, one after the other, collects all of them. -/
theorem foldl_insertPair (hbase : heap.DistinctKeys base) (pairs : List (Handle × Handle)) :
    pairs.foldl (fun acc pair => heap.insertPair pair.1 pair.2 acc) base =
      heap.collected (base ++ pairs) := by
  induction pairs using List.reverseRecOn with
  | nil => rw [List.append_nil, hbase.collected_eq, List.foldl_nil]
  | append_singleton pairs pair ih =>
    rw [List.foldl_concat, ih, ← List.append_assoc, collected_concat]

theorem distinctKeys_collected (heap : Heap) (pairs : List (Handle × Handle)) :
    heap.DistinctKeys (heap.collected pairs) := by
  unfold DistinctKeys collected
  rw [List.map_map]
  show ((heap.firstKeys _).map fun k => k).Pairwise _
  rw [List.map_id']
  exact firstKeys_pairwise heap _

theorem keysEqual_setPairs (heap : Heap) (h : Handle) (pairs : List (Handle × Handle)) :
    (heap.setPairs h pairs).keysEqual = heap.keysEqual := by
  induction pairs generalizing heap with
  | nil => rfl
  | cons pair rest ih =>
    show ((heap.hashSet h pair.1 pair.2).setPairs h rest).keysEqual = _
    rw [ih, keysEqual_hashSet]

theorem size_setPairs (heap : Heap) (h : Handle) (pairs : List (Handle × Handle)) :
    (heap.setPairs h pairs).size = heap.size := by
  induction pairs generalizing heap with
  | nil => rfl
  | cons pair rest ih =>
    show ((heap.hashSet h pair.1 pair.2).setPairs h rest).size = _
    rw [ih, size_hashSet]

/-- The hash at `h` goes through the insertions and nothing else changes. -/
theorem get_setPairs (hhash : (heap.get h).hash? = some base) (pairs : List (Handle × Handle))
    (x : Handle) :
    (heap.setPairs h pairs).get x =
      if x = h then
        { heap.get h with
          payload := .hash (pairs.foldl (fun acc pair => heap.insertPair pair.1 pair.2 acc) base) }
      else heap.get x := by
  induction pairs generalizing heap base with
  | nil =>
    show heap.get x = _
    split
    · next hx => rw [hx, List.foldl_nil, ← Object.payload_of_hash? hhash]
    · rfl
  | cons pair rest ih =>
    have hself := get_hashSet hhash pair.1 pair.2 h
    rw [if_pos rfl] at hself
    have hlater : ((heap.hashSet h pair.1 pair.2).get h).hash? =
        some (heap.insertPair pair.1 pair.2 base) := by rw [hself]; rfl
    show ((heap.hashSet h pair.1 pair.2).setPairs h rest).get x = _
    rw [ih hlater, hself, get_hashSet hhash]
    simp only [insertPair_congr (keysEqual_hashSet heap h pair.1 pair.2), List.foldl_cons]
    split <;> rfl

/-- `heap₁` is `heap` with `pairs` put one after the other into the hash at `h`, which held `base`
before.  This is a fold whatever the hash held.  Where it held distinct keys, the result of the fold is
what has been collected in all. -/
structure Merged (heap : Heap) (h : Handle) (base pairs : List (Handle × Handle)) (heap₁ : Heap) :
    Prop where
  fold : heap₁ = pairs.foldl (fun heap pair => heap.hashSet h pair.1 pair.2) heap
  size : heap₁.size = heap.size
  others : ∀ x, x ≠ h → heap₁.get x = heap.get x
  inserted : heap₁.get h =
    { heap.get h with
      payload := .hash (pairs.foldl (fun acc pair => heap.insertPair pair.1 pair.2 acc) base) }
  hash : heap.DistinctKeys base →
    heap₁.get h = { heap.get h with payload := .hash (heap.collected (base ++ pairs)) }
  distinct : heap.DistinctKeys base → heap₁.DistinctKeys (heap.collected (base ++ pairs))

theorem merged_setPairs (hhash : (heap.get h).hash? = some base) (pairs : List (Handle × Handle)) :
    heap.Merged h base pairs (heap.setPairs h pairs) := by
  have hself := get_setPairs hhash pairs h
  rw [if_pos rfl] at hself
  refine ⟨rfl, size_setPairs heap h pairs, fun x hx => ?_, hself, fun hbase => ?_, fun _ => ?_⟩
  · rw [get_setPairs hhash, if_neg hx]
  · rw [hself, foldl_insertPair hbase]
  · unfold DistinctKeys
    rw [keysEqual_setPairs]
    exact distinctKeys_collected heap _

/-- Two heaps of the same size with the same objects are the same. -/
theorem ext_get (hsize : heap₁.size = heap.size) (hget : ∀ x, heap₁.get x = heap.get x) :
    heap₁ = heap := by
  obtain ⟨objects₁⟩ := heap₁
  obtain ⟨objects⟩ := heap
  congr 1
  refine Array.ext hsize fun i hi₁ hi => ?_
  have hi' := hget ⟨i⟩
  simpa only [get, Array.getD_eq_getD_getElem?, Array.getElem?_eq_getElem hi₁,
    Array.getElem?_eq_getElem hi, Option.getD_some] using hi'

/-- A pair that is there already changes nothing. -/
theorem insertPair_of_mem (hpairs : heap.DistinctKeys pairs) (hmem : (key, value) ∈ pairs) :
    heap.insertPair key value pairs = pairs := by
  induction pairs with
  | nil => cases hmem
  | cons pair rest ih =>
    obtain ⟨k, v⟩ := pair
    obtain ⟨hfirst, hrest⟩ := List.pairwise_cons.mp hpairs
    rcases List.mem_cons.mp hmem with heq | hlater
    · cases heq
      have hself : heap.keysEqual key key = true := (heap.keysEqual_equivalence).refl key
      simp [insertPair, hself]
    · have hk : heap.keysEqual k key = false :=
        hfirst key (List.mem_map_of_mem (f := (·.1)) hlater)
      simp [insertPair, hk, ih hrest hlater]

/-- Putting the pairs of a hash into itself changes nothing. -/
theorem setPairs_self (hhash : (heap.get h).hash? = some base) (hbase : heap.DistinctKeys base) :
    heap.setPairs h base = heap := by
  have hfold : ∀ pairs : List (Handle × Handle), (∀ pair ∈ pairs, pair ∈ base) →
      pairs.foldl (fun acc pair => heap.insertPair pair.1 pair.2 acc) base = base := by
    intro pairs hpairs
    induction pairs with
    | nil => rfl
    | cons pair rest ih =>
      have hpair := insertPair_of_mem hbase (hpairs pair List.mem_cons_self)
      rw [List.foldl_cons, hpair]
      exact ih fun pair hp => hpairs pair (List.mem_cons_of_mem _ hp)
  refine ext_get (size_setPairs heap h base) fun x => ?_
  rw [get_setPairs hhash, hfold base fun _ hp => hp]
  split
  · next hx => rw [hx, ← Object.payload_of_hash? hhash]
  · rfl

end Heap

/-! ## Where hashes are made and extended -/

/-- A hash that has just been made. -/
def emptyHash : Object := { isa := Handle.hashClass, payload := .hash [] }

theorem Action.hashSetAll_eq (h : Handle) (pairs : List (Handle × Handle)) (m : Machine) :
    Action.hashSetAll h pairs m = .ok () { m with heap := m.heap.setPairs h pairs } := by
  induction pairs generalizing m with
  | nil => rfl
  | cons pair rest ih =>
    have hset : Action.hashSet h pair.1 pair.2 m =
        .ok () { m with heap := m.heap.hashSet h pair.1 pair.2 } := rfl
    exact (carryOn_of_ok hset).trans (ih _)

theorem Action.newHash_eq (pairs : List (Handle × Handle)) (m : Machine) :
    Action.newHash pairs m =
      .ok m.heap.next { m with heap := (m.heap.push emptyHash).setPairs m.heap.next pairs } := by
  have hnew : Action.allocate emptyHash m =
      .ok m.heap.next { m with heap := m.heap.push emptyHash } := rfl
  exact (carryOn_of_ok hnew).trans (carryOn_of_ok (Action.hashSetAll_eq _ _ _))

/-- A new hash starts out empty. -/
theorem Heap.merged_new (heap : Heap) (pairs : List (Handle × Handle)) :
    (heap.push emptyHash).Merged heap.next [] pairs ((heap.push emptyHash).setPairs heap.next pairs) := by
  refine merged_setPairs ?_ pairs
  rw [get_push, if_pos (show heap.next.index = heap.size from rfl)]
  rfl

theorem Machine.hash_of_hash? {m : Machine} {h : Handle} {pairs : List (Handle × Handle)}
    (hhash : (m.object h).hash? = some pairs) : m.hash h = .ok pairs :=
  Machine.expect_of_some hhash

namespace Step

/-- A check that is passed changes nothing. -/
theorem check_of_ok {α : Type} {q : Machine → Except Fault α} {x : α} {s : Activation}
    (h : q s.machine = .ok x) : discard (act (Action.demand q)) s = .ok () s :=
  carryOn_of_ok (demand_of_ok h)

variable (e : Engine) (offset : Nat) (a b c : UInt16) (s : Activation)
  {base more : List (Handle × Handle)}

theorem take_hash :
    take e ⟨offset, { op := .hash, a, b, c }⟩ s =
      .ok .next ⟨s.frame.set a s.machine.heap.next,
        { s.machine with
          heap := (s.machine.heap.push emptyHash).setPairs s.machine.heap.next (s.frame.pairs a b) }⟩ := by
  have hnew := act_of_ok (s := s) (Action.newHash_eq (s.frame.pairs a b) s.machine)
  have hwrite := carryOn_of_ok (f := write a) hnew
  have hexecute : execute e { op := .hash, a, b, c } s = _ := hwrite
  exact carryOn_of_ok hexecute

theorem take_hashAdd (hhash : (s.machine.object (s.frame.get a)).hash? = some base) :
    take e ⟨offset, { op := .hashAdd, a, b, c }⟩ s =
      .ok .next ⟨s.frame,
        { s.machine with
          heap := s.machine.heap.setPairs (s.frame.get a) (s.frame.pairs (a + 1) b) }⟩ := by
  have hput := act_of_ok (s := s)
    (Action.hashSetAll_eq (s.frame.get a) (s.frame.pairs (a + 1) b) s.machine)
  have hexecute : execute e { op := .hashAdd, a, b, c } s = _ :=
    (carryOn_of_ok (check_of_ok (Machine.hash_of_hash? hhash))).trans hput
  exact carryOn_of_ok hexecute

theorem take_hashCat (hhash : (s.machine.object (s.frame.get a)).hash? = some base)
    (hother : s.frame.get (a + 1) ≠ Handle.nil)
    (hmore : (s.machine.object (s.frame.get (a + 1))).hash? = some more) :
    take e ⟨offset, { op := .hashCat, a, b, c }⟩ s =
      .ok .next ⟨s.frame,
        { s.machine with heap := s.machine.heap.setPairs (s.frame.get a) more }⟩ := by
  have hread : act (Action.demand (·.hash (s.frame.get (a + 1)))) s = .ok more s :=
    act_of_ok (by simp only [Action.demand, Machine.hash_of_hash? hmore])
  have hexecute : execute e { op := .hashCat, a, b, c } s =
      act (Action.hashSetAll (s.frame.get a) more) s := by
    refine (carryOn_of_ok (check_of_ok (Machine.hash_of_hash? hhash))).trans ?_
    show (if s.frame.get (a + 1) ≠ Handle.nil then _ else _ : Step Unit) s = _
    rw [if_pos hother]
    exact carryOn_of_ok hread
  exact carryOn_of_ok (hexecute.trans (act_of_ok (Action.hashSetAll_eq _ more s.machine)))

/-- There is nothing to merge in `nil`. -/
theorem take_hashCat_nil (hhash : (s.machine.object (s.frame.get a)).hash? = some base)
    (hother : s.frame.get (a + 1) = Handle.nil) :
    take e ⟨offset, { op := .hashCat, a, b, c }⟩ s = .ok .next s := by
  have hexecute : execute e { op := .hashCat, a, b, c } s = .ok () s := by
    refine (carryOn_of_ok (check_of_ok (Machine.hash_of_hash? hhash))).trans ?_
    show (if s.frame.get (a + 1) ≠ Handle.nil then _ else _ : Step Unit) s = _
    rw [if_neg (not_not.mpr hother)]
    rfl
  exact carryOn_of_ok hexecute

end Step

/-- **Hashes are finite maps in the order of insertion.**  Equality of keys is an equivalence on any
heap.  Putting a value under a key of a hash with distinct keys changes nothing but that hash, finds
the value under every equal key and what was there under every other, and keeps the keys in their
order, with a new one at the end.  New hashes, hash literals, additions and merges fold over their
pairs, whatever the hash held before.  If that had distinct keys, what they leave is what has been
collected: a key where it first occurred, with its last value.  To merge in `nil` changes nothing, and
neither does merging a hash with distinct keys into itself. -/
theorem hashes_ordered_maps :
    (∀ heap : Heap, Equivalence fun a b => heap.keysEqual a b = true) ∧
    (∀ (heap : Heap) (h key value : Handle) (pairs : List (Handle × Handle)),
      (heap.get h).hash? = some pairs → heap.DistinctKeys pairs →
      heap.Stored h key value pairs (heap.hashSet h key value)) ∧
    (∀ (m : Machine) (pairs : List (Handle × Handle)), ∃ heap₁,
      Action.newHash pairs m = .ok m.heap.next { m with heap := heap₁ } ∧
      (m.heap.push emptyHash).Merged m.heap.next [] pairs heap₁) ∧
    (∀ (e : Engine) (offset : Nat) (a b c : UInt16) (s : Activation), ∃ heap₁,
      Step.take e ⟨offset, { op := .hash, a, b, c }⟩ s =
        .ok .next ⟨s.frame.set a s.machine.heap.next, { s.machine with heap := heap₁ }⟩ ∧
      (s.machine.heap.push emptyHash).Merged s.machine.heap.next [] (s.frame.pairs a b) heap₁) ∧
    (∀ (e : Engine) (offset : Nat) (a b c : UInt16) (s : Activation)
      (base : List (Handle × Handle)),
      (s.machine.object (s.frame.get a)).hash? = some base →
      (∃ heap₁, Step.take e ⟨offset, { op := .hashAdd, a, b, c }⟩ s =
          .ok .next ⟨s.frame, { s.machine with heap := heap₁ }⟩ ∧
        s.machine.heap.Merged (s.frame.get a) base (s.frame.pairs (a + 1) b) heap₁) ∧
      (∀ more, s.frame.get (a + 1) ≠ Handle.nil →
        (s.machine.object (s.frame.get (a + 1))).hash? = some more →
        ∃ heap₁, Step.take e ⟨offset, { op := .hashCat, a, b, c }⟩ s =
            .ok .next ⟨s.frame, { s.machine with heap := heap₁ }⟩ ∧
          s.machine.heap.Merged (s.frame.get a) base more heap₁) ∧
      (s.frame.get (a + 1) = Handle.nil ∨
          s.frame.get (a + 1) = s.frame.get a ∧ s.machine.heap.DistinctKeys base →
        Step.take e ⟨offset, { op := .hashCat, a, b, c }⟩ s = .ok .next s)) := by
  refine ⟨Heap.keysEqual_equivalence, ?_, ?_, ?_, ?_⟩
  · intro heap h key value pairs hhash hpairs
    exact Heap.stored_hashSet hhash hpairs key value
  · intro m pairs
    exact ⟨_, Action.newHash_eq pairs m, m.heap.merged_new pairs⟩
  · intro e offset a b c s
    exact ⟨_, Step.take_hash e offset a b c s, s.machine.heap.merged_new _⟩
  · intro e offset a b c s base hhash
    refine ⟨?_, fun more hother hmore => ?_, fun hnothing => ?_⟩
    · exact ⟨_, Step.take_hashAdd e offset a b c s hhash, Heap.merged_setPairs hhash _⟩
    · exact ⟨_, Step.take_hashCat e offset a b c s hhash hother hmore,
        Heap.merged_setPairs hhash more⟩
    · by_cases hother : s.frame.get (a + 1) = Handle.nil
      · exact Step.take_hashCat_nil e offset a b c s hhash hother
      · obtain ⟨hself, hbase⟩ := hnothing.resolve_left hother
        rw [Step.take_hashCat e offset a b c s hhash hother (hself ▸ hhash),
          Heap.setPairs_self hhash hbase]

/-- A frame with a hash that has the key `"a"`, and behind it the pairs `"a" => true` with another
string `"a"`, `"b" => true` and `"b" => false`. -/
def additions : Activation where
  frame :=
    { record := default
      registers := #[Handle.mainObject, ⟨21⟩, ⟨19⟩, Handle.yes, ⟨20⟩, Handle.yes, ⟨20⟩, Handle.no]
      context := .topLevel }
  machine :=
    let m := Machine.boot
    let strings := ["a", "a", "b"].map fun text =>
      ({ isa := Handle.stringClass, payload := .string text } : Object)
    { m with
      heap := (strings.foldl Heap.push m.heap).push
        { isa := Handle.hashClass, payload := .hash [(⟨18⟩, Handle.nil)] } }

/-- The key that was there keeps its handle and its place, and the last value under `"b"` counts. -/
theorem hashes_ordered_maps_additions :
    (additions.machine.object ⟨21⟩).hash? = some [(⟨18⟩, Handle.nil)] ∧
    additions.machine.heap.DistinctKeys [(⟨18⟩, Handle.nil)] ∧
    ∃ heap₁, Step.take (Run.engine 0) ⟨0, { op := .hashAdd, a := 1, b := 3 }⟩ additions =
        .ok .next ⟨additions.frame, { additions.machine with heap := heap₁ }⟩ ∧
      (heap₁.get ⟨21⟩).hash? = some [(⟨18⟩, Handle.yes), (⟨20⟩, Handle.no)] := by
  have hhash : (additions.machine.object ⟨21⟩).hash? = some [(⟨18⟩, Handle.nil)] := by decide +kernel
  have hbase : additions.machine.heap.DistinctKeys [(⟨18⟩, Handle.nil)] := by decide +kernel
  have hcollected : additions.machine.heap.collected
      ([(⟨18⟩, Handle.nil)] ++ additions.frame.pairs (1 + 1) 3) =
        [(⟨18⟩, Handle.yes), (⟨20⟩, Handle.no)] := by decide +kernel
  obtain ⟨heap₁, htake, hmerged⟩ :=
    (hashes_ordered_maps.2.2.2.2 (Run.engine 0) 0 1 3 0 additions _ hhash).1
  refine ⟨hhash, hbase, heap₁, htake, ?_⟩
  show (heap₁.get (additions.frame.get 1)).hash? = _
  rw [hmerged.hash hbase, hcollected]
  rfl

end Rite
