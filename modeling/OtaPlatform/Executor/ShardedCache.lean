import OtaPlatform.Executor.Handlers

/-!
# The sharded cache of the card keys

The worker keeps the keys of the cards it serves in 256 maps, each under a lock of its own. A key is
looked up in the map that its hash selects, so that two workers wait for each other only when their
keys fall into the same shard. The rest of the worker takes the cache for a map.

It is one, whatever the hash: every load returns what a single map would return after the same
operations (`loads_eq_mapLoads`), and the handlers run over the shards as they run over the map of
`Process` (`run_shardedWorker`).

## The invariant

What a load finds, as a function of the key, is the map (`Represents.load`). An operation on one key
changes one entry of one shard: another key is either in another shard, or in this one under its
own entry, so collisions do no harm. And an entry is only ever found in the shard that its hash
selects (`Represents.placed`).
-/

namespace OtaPlatform

open Function

def cacheShards : ℕ := 256

/-- The maps of the shards. The lock of a shard is held for one access to its map, so an operation
is one step. -/
structure ShardedCache (K V : Type) where
  shards : Fin cacheShards → K → Option V

inductive CacheOp (K V : Type)
  | load (key : K)
  | store (key : K) (value : V)
  | delete (key : K)

namespace ShardedCache

variable {K V : Type}

def newShardedCache : ShardedCache K V := ⟨fun _ _ ↦ none⟩

variable (hash : K → UInt32)

def shard (key : K) : Fin cacheShards :=
  ⟨(hash key).toNat % cacheShards, Nat.mod_lt _ (Nat.succ_pos 255)⟩

def load (c : ShardedCache K V) (key : K) : Option V := c.shards (shard hash key) key

variable [DecidableEq K]

/-- The cache with another entry for the key, in the shard of the key. -/
def set (c : ShardedCache K V) (key : K) (entry : Option V) : ShardedCache K V :=
  ⟨update c.shards (shard hash key) (update (c.shards (shard hash key)) key entry)⟩

def store (c : ShardedCache K V) (key : K) (value : V) : ShardedCache K V :=
  c.set hash key (some value)

def delete (c : ShardedCache K V) (key : K) : ShardedCache K V := c.set hash key none

/-- What the loads of a sequence of operations return. -/
def loads (c : ShardedCache K V) : List (CacheOp K V) → List (Option V)
  | [] => []
  | .load key :: ops => c.load hash key :: c.loads ops
  | .store key value :: ops => (c.store hash key value).loads ops
  | .delete key :: ops => (c.delete hash key).loads ops

/-- What they return when the operations are those of a single map. -/
def mapLoads (m : K → Option V) : List (CacheOp K V) → List (Option V)
  | [] => []
  | .load key :: ops => m key :: mapLoads m ops
  | .store key value :: ops => mapLoads (update m key (some value)) ops
  | .delete key :: ops => mapLoads (update m key none) ops

/-! ## The cache is a map -/

/-- The loads see the map, and every entry is in the shard of its key. -/
structure Represents (c : ShardedCache K V) (m : K → Option V) : Prop where
  load : c.load hash = m
  placed : ∀ i key, shard hash key ≠ i → c.shards i key = none

variable {hash} {c : ShardedCache K V} {m : K → Option V}

theorem load_set (c : ShardedCache K V) (key : K) (entry : Option V) :
    (c.set hash key entry).load hash = update (c.load hash) key entry := by
  funext key'
  by_cases hkey : key' = key
  · subst hkey
    simp [load, set]
  · rw [update_of_ne hkey]
    by_cases hshard : shard hash key' = shard hash key
    -- a collision: the shard was written, but not at this key
    · simp [load, set, hshard, hkey]
    · simp [load, set, hshard]

omit [DecidableEq K] in
theorem represents_new : Represents hash (newShardedCache : ShardedCache K V) fun _ ↦ none :=
  ⟨rfl, fun _ _ _ ↦ rfl⟩

theorem Represents.set (h : Represents hash c m) (key : K) (entry : Option V) :
    Represents hash (c.set hash key entry) (update m key entry) := by
  refine ⟨by rw [load_set, h.load], fun i key' hi ↦ ?_⟩
  by_cases hshard : i = shard hash key
  · have hkey : key' ≠ key := fun heq ↦ hi (by rw [heq, hshard])
    subst hshard
    simpa [ShardedCache.set, hkey] using h.placed _ _ hi
  · simpa [ShardedCache.set, hshard] using h.placed _ _ hi

theorem Represents.loads_eq (h : Represents hash c m) (ops : List (CacheOp K V)) :
    c.loads hash ops = mapLoads m ops := by
  induction ops generalizing c m with
  | nil => rfl
  | cons o ops ih =>
    cases o with
    | load key => rw [loads, mapLoads, ih h, h.load]
    | store key value => exact ih (h.set key (some value))
    | delete key => exact ih (h.set key none)

/-- **The sharded cache is a map**: under any sequence of operations, every load returns what it
returns on a single map, for every hash function. -/
theorem loads_eq_mapLoads (hash : K → UInt32) (ops : List (CacheOp K V)) :
    newShardedCache.loads hash ops = mapLoads (fun _ ↦ none) ops :=
  represents_new.loads_eq ops

end ShardedCache

/-! ## The worker over the shards -/

/-- FNV-1a of the bytes of the key. -/
def fnv32a (key : String) : UInt32 :=
  key.toUTF8.toList.foldl (fun h b ↦ (h ^^^ b.toUInt32) * 16777619) 2166136261

/-- The process of the worker, with the cache as it is stored. -/
structure ShardedProcess where
  states : CardStateStore
  counters : CounterStore
  cardKeyCache : ShardedCache String CardKeyMaterial

namespace ShardedProcess

/-- The process with the map that the loads see. -/
def process (s : ShardedProcess) : Process where
  states := s.states
  counters := s.counters
  cardKeyCache cardID := s.cardKeyCache.load fnv32a cardID.text

def preloadCardKeys (s : ShardedProcess) (keys : List (UUID × CardKeyMaterial)) :
    ShardedProcess :=
  { s with
    cardKeyCache := keys.foldl (fun c kv ↦ c.store fnv32a kv.1.text kv.2) s.cardKeyCache }

/-- The operations of the handlers, with those on the keys performed on the shards. -/
def semantics : Semantics workerSignature ShardedProcess Output where
  answer s := workerSemantics.answer s.process
  next s o :=
    { states := (workerSemantics.next s.process o).states
      counters := (workerSemantics.next s.process o).counters
      cardKeyCache := match o with
        | .cacheKeys cardID keys => s.cardKeyCache.store fnv32a cardID.text keys
        | .evictKeys cardID => s.cardKeyCache.delete fnv32a cardID.text
        | _ => s.cardKeyCache }
  output s := workerSemantics.output s.process

private theorem load_set_text (c : ShardedCache String CardKeyMaterial) (cardID : UUID)
    (entry : Option CardKeyMaterial) :
    (fun card : UUID ↦ (c.set fnv32a cardID.text entry).load fnv32a card.text)
      = update (fun card ↦ c.load fnv32a card.text) cardID entry := by
  have htext : Injective UUID.text := fun _ _ h ↦ UUID.ext h
  rw [ShardedCache.load_set]
  exact update_comp_eq_of_injective _ htext cardID entry

theorem process_next (s : ShardedProcess) (o : WorkerOp) :
    (semantics.next s o).process = workerSemantics.next s.process o := by
  cases o with
  | cacheKeys cardID keys =>
    exact congrArg (Process.mk s.states s.counters) (load_set_text _ cardID (some keys))
  | evictKeys cardID =>
    exact congrArg (Process.mk s.states s.counters) (load_set_text _ cardID none)
  | setCardState cardID ref =>
    simp only [semantics, workerSemantics, process]
    split_ifs <;> rfl
  | _ => rfl

/-- **The handlers cannot tell the shards from the map**: a program of the worker returns the same
over both, sends out the same, and leaves the process whose map the shards then hold. -/
theorem run_shardedWorker {α : Type} (p : Worker α) (s : ShardedProcess) :
    p.run workerSemantics s.process = ⟨(p.run semantics s).value, (p.run semantics s).state.process,
          (p.run semantics s).outputs⟩ := by
  induction p generalizing s with
  | ret a => rfl
  | call o k ih =>
    have hrest := ih (workerSemantics.answer s.process o) (semantics.next s o)
    rw [process_next] at hrest
    rw [Program.run, hrest]
    rfl

theorem process_preloadCardKeys (s : ShardedProcess) (keys : List (UUID × CardKeyMaterial)) :
    (s.preloadCardKeys keys).process.cardKeyCache = keys.foldl
      (fun (cache : UUID → Option _) kv ↦ update cache kv.1 (some kv.2))
      s.process.cardKeyCache := by
  induction keys generalizing s with
  | nil => rfl
  | cons kv keys ih =>
    have hrest := ih { s with cardKeyCache := s.cardKeyCache.store fnv32a kv.1.text kv.2 }
    exact hrest.trans (congrArg (keys.foldl _) (load_set_text _ kv.1 (some kv.2)))

end ShardedProcess

end OtaPlatform
