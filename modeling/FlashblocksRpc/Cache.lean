import FlashblocksRpc.Types

/-!
# The state cache

`crate::cache::Cache`, shared by the actor (the only writer) and the RPC handlers, is not among
the repository's files: it is modelled from the spec (§4.1, §6). A value is stored in
serialized form and decoded at the type the reader asks for, so a missing, expired or
differently typed entry reads as absent; every write carries a time-to-live, and an entry whose
time has run out reads as absent.

* `Value` has one constructor per type the code stores; `Value.base?` and its siblings are the
  decodings `get::<T>` applies.
* `Cache.set` returns `none` where `Cache::set` returns `Err`. Which writes fail is the field
  `failing`, which nothing changes; a cache with no failing key is `Healthy`.
* `Cache.lookup_write`: after a write, a key reads the new value if it is the written key and
  what it read before otherwise. The actor never moves the clock, so this is all an invariant
  over the actor's runs needs; `Cache.tick` moves it between updates, for the results on
  expiry (`getTransactionReceipt_panics_after_resend`, `handlers_after_quiet`).
* `Cache.Agrees c c' S`: `c'` holds the entries of `c` outside the keys `S` — the frame of each
  step.
-/

namespace FlashblocksRpc

/-! ## Stored values -/

/-- Modelled from the spec: a value as the cache stores it, one constructor per Rust type the
code writes (`usize` and `u64` serialize alike).
Source: spec §4.1 (StateCache)
Kind: D -/
inductive Value where
  | base (b : ExecutionPayloadBaseV1)
  | block (b : OpBlock)
  | bytesList (l : List Bytes)
  | hashList (l : List TxHash)
  | transaction (tx : OpTransactionSigned)
  | u64 (n : UInt64)
  | address (a : Address)
  | receipt (r : OpReceipt)
  | receiptList (l : List OpReceipt)
  | string (s : String)
  deriving DecidableEq, Repr

namespace Value

/-- Decoding at `ExecutionPayloadBaseV1`. Source: spec §4.1 (StateCache). Kind: D -/
def base? : Value → Option ExecutionPayloadBaseV1
  | .base b => some b
  | _ => none

/-- Decoding at `OpBlock`. Source: spec §4.1 (StateCache). Kind: D -/
def block? : Value → Option OpBlock
  | .block b => some b
  | _ => none

/-- Decoding at `Vec<Bytes>`. Source: spec §4.1 (StateCache). Kind: D -/
def bytesList? : Value → Option (List Bytes)
  | .bytesList l => some l
  | _ => none

/-- Decoding at `Vec<String>` (the list of hash strings). Source: spec §4.1 (StateCache). Kind: D -/
def hashList? : Value → Option (List TxHash)
  | .hashList l => some l
  | _ => none

/-- Decoding at `OpTransactionSigned`. Source: spec §4.1 (StateCache). Kind: D -/
def transaction? : Value → Option OpTransactionSigned
  | .transaction tx => some tx
  | _ => none

/-- Decoding at `u64`. Source: spec §4.1 (StateCache). Kind: D -/
def u64? : Value → Option UInt64
  | .u64 n => some n
  | _ => none

/-- Decoding at `Address`. Source: spec §4.1 (StateCache). Kind: D -/
def address? : Value → Option Address
  | .address a => some a
  | _ => none

/-- Decoding at `OpReceipt`. Source: spec §4.1 (StateCache). Kind: D -/
def receipt? : Value → Option OpReceipt
  | .receipt r => some r
  | _ => none

/-- Decoding at `Vec<OpReceipt>`. Source: spec §4.1 (StateCache). Kind: D -/
def receiptList? : Value → Option (List OpReceipt)
  | .receiptList l => some l
  | _ => none

/-- `base?` succeeds exactly on a `base` value. Source: none: infrastructure. Kind: L -/
@[simp] theorem base?_eq_some {v : Value} {b : ExecutionPayloadBaseV1} :
    v.base? = some b ↔ v = .base b := by
  cases v <;> simp [base?]

/-- `block?` succeeds exactly on a `block` value. Source: none: infrastructure. Kind: L -/
@[simp] theorem block?_eq_some {v : Value} {b : OpBlock} : v.block? = some b ↔ v = .block b := by
  cases v <;> simp [block?]

/-- `bytesList?` succeeds exactly on a `bytesList` value. Source: none: infrastructure. Kind: L -/
@[simp] theorem bytesList?_eq_some {v : Value} {l : List Bytes} :
    v.bytesList? = some l ↔ v = .bytesList l := by
  cases v <;> simp [bytesList?]

/-- `transaction?` succeeds exactly on a `transaction` value.
Source: none: infrastructure
Kind: L -/
@[simp] theorem transaction?_eq_some {v : Value} {tx : OpTransactionSigned} :
    v.transaction? = some tx ↔ v = .transaction tx := by
  cases v <;> simp [transaction?]

/-- `u64?` succeeds exactly on a `u64` value. Source: none: infrastructure. Kind: L -/
@[simp] theorem u64?_eq_some {v : Value} {n : UInt64} : v.u64? = some n ↔ v = .u64 n := by
  cases v <;> simp [u64?]

/-- `address?` succeeds exactly on an `address` value. Source: none: infrastructure. Kind: L -/
@[simp] theorem address?_eq_some {v : Value} {a : Address} : v.address? = some a ↔ v = .address a := by
  cases v <;> simp [address?]

/-- `receipt?` succeeds exactly on a `receipt` value. Source: none: infrastructure. Kind: L -/
@[simp] theorem receipt?_eq_some {v : Value} {r : OpReceipt} : v.receipt? = some r ↔ v = .receipt r := by
  cases v <;> simp [receipt?]

/-- `receiptList?` succeeds exactly on a `receiptList` value.
Source: none: infrastructure
Kind: L -/
@[simp] theorem receiptList?_eq_some {v : Value} {l : List OpReceipt} :
    v.receiptList? = some l ↔ v = .receiptList l := by
  cases v <;> simp [receiptList?]

end Value

/-! ## Entries and the store -/

/-- Modelled from the spec: a stored value and the clock reading at which it expires
(`none`: it never does).
Source: spec §4.1 (StateCache)
Kind: D -/
structure Entry where
  value : Value
  expiry : Option Nat
  deriving DecidableEq

/-- An entry is live at `now` until its expiry.
Source: spec §4.1 ("an expired entry is never returned as present")
Kind: D -/
def Entry.isLive (e : Entry) (now : Nat) : Bool :=
  match e.expiry with
  | some t => decide (now < t)
  | none => true

/-- Modelled from the spec: the store (a key-to-entry map), the clock, and the keys whose
writes fail.
Source: spec §4.1 (StateCache)
Kind: D -/
structure Cache where
  entries : Key → Option Entry
  now : Nat
  failing : Key → Bool

namespace Cache

/-- The empty store at time `0`, where every write succeeds.
Source: none: infrastructure
Kind: D -/
def empty : Cache := ⟨fun _ => none, 0, fun _ => false⟩

/-- The live value under `key`. Source: spec §4.1 (StateCache). Kind: D -/
def lookup (c : Cache) (key : Key) : Option Value :=
  match c.entries key with
  | some e => if e.isLive c.now then some e.value else none
  | none => none

/-- Modelled from the spec: `Cache::get::<T>`, the live value under `key` decoded at `T`.
Source: spec §4.1 (StateCache)
Kind: D -/
def get (c : Cache) (key : Key) (decode : Value → Option α) : Option α :=
  (c.lookup key).bind decode

/-- The store with `value` written under `key`, expiring `ttl` after now.
Source: none: infrastructure
Kind: D -/
def write (c : Cache) (key : Key) (value : Value) (ttl : Option Nat) : Cache :=
  { c with entries := Function.update c.entries key (some ⟨value, ttl.map (c.now + ·)⟩) }

/-- Modelled from the spec: `Cache::set`, `none` for `Err`.
Source: spec §4.1 (StateCache)
Kind: D -/
def set (c : Cache) (key : Key) (value : Value) (ttl : Option Nat) : Option Cache :=
  if c.failing key then none else some (c.write key value ttl)

/-- A write whose error the caller only logs.
Source: `flashblocks.rs`, every `if let Err(e) = cache.set(..)` that only logs
Kind: D -/
def put (c : Cache) (key : Key) (value : Value) (ttl : Option Nat) : Cache :=
  (c.set key value ttl).getD c

/-- The clock moved on by `dt`. Source: spec §3 ("implicitly destroyed by TTL expiry"). Kind: D -/
def tick (c : Cache) (dt : Nat) : Cache := { c with now := c.now + dt }

/-- No write fails. Source: none: infrastructure. Kind: D -/
def Healthy (c : Cache) : Prop := ∀ k, c.failing k = false

/-! ## Reading after writing -/

/-- A write leaves the clock. Source: none: infrastructure. Kind: L -/
@[simp] theorem write_now (c : Cache) (k : Key) (v : Value) (t : Option Nat) :
    (c.write k v t).now = c.now := rfl

/-- A write leaves the failing keys. Source: none: infrastructure. Kind: L -/
@[simp] theorem write_failing (c : Cache) (k : Key) (v : Value) (t : Option Nat) :
    (c.write k v t).failing = c.failing := rfl

/-- The empty store reads as absent everywhere. Source: none: infrastructure. Kind: L -/
@[simp] theorem empty_lookup (k : Key) : empty.lookup k = none := rfl

/-- A key with no entry reads as absent at any later time. Source: none: infrastructure. Kind: L -/
@[simp] theorem tick_lookup_of_entries_none {c : Cache} {k : Key} (h : c.entries k = none)
    (dt : Nat) : (c.tick dt).lookup k = none := by
  simp [lookup, tick, h]

/-- `dt` later, an entry reads as its value until its expiry, and as nothing from then on.
Source: none: infrastructure
Kind: L -/
theorem tick_lookup_of_entries {c : Cache} {k : Key} {v : Value} {t : Nat}
    (h : c.entries k = some ⟨v, some t⟩) (dt : Nat) :
    (c.tick dt).lookup k = if c.now + dt < t then some v else none := by
  simp [lookup, tick, h, Entry.isLive]

/-- A read depends only on the entry read and the clock. Source: none: infrastructure. Kind: L -/
theorem lookup_congr {c c' : Cache} (hn : c'.now = c.now) {k : Key}
    (hk : c'.entries k = c.entries k) : c'.lookup k = c.lookup k := by
  simp only [lookup, hn, hk]

/-- Two stores on one clock with the same entry under `k` read alike there at any later time.
Source: none: infrastructure
Kind: L -/
theorem tick_lookup_congr {c c' : Cache} (hn : c'.now = c.now) {k : Key}
    (hk : c'.entries k = c.entries k) (dt : Nat) : (c'.tick dt).lookup k = (c.tick dt).lookup k :=
  lookup_congr (by simp [tick, hn]) hk

/-- A key reads the value just written under it, and anything else reads as before.
Source: none: infrastructure
Kind: L -/
@[simp] theorem lookup_write (c : Cache) (k k' : Key) (v : Value) {t : Nat} (ht : 0 < t) :
    (c.write k v (some t)).lookup k' = if k' = k then some v else c.lookup k' := by
  by_cases h : k' = k
  · subst h; simp [lookup, write, Entry.isLive, ht]
  · simp [lookup, write, Function.update_noteq h, h]

/-- Where no write fails, `set` succeeds with the written store.
Source: none: infrastructure
Kind: L -/
theorem set_of_healthy {c : Cache} (hc : c.Healthy) (k : Key) (v : Value) (t : Option Nat) :
    c.set k v t = some (c.write k v t) := by
  simp [set, hc k]

/-- Where no write fails, a logged write is the write itself.
Source: none: infrastructure
Kind: L -/
theorem put_of_healthy {c : Cache} (hc : c.Healthy) (k : Key) (v : Value) (t : Option Nat) :
    c.put k v t = c.write k v t := by
  simp [put, set_of_healthy hc]

/-- A write keeps every write succeeding. Source: none: infrastructure. Kind: L -/
theorem Healthy.write {c : Cache} (hc : c.Healthy) (k : Key) (v : Value) (t : Option Nat) :
    (c.write k v t).Healthy := hc

/-- Time passing keeps every write succeeding. Source: none: infrastructure. Kind: L -/
theorem Healthy.tick {c : Cache} (hc : c.Healthy) (dt : Nat) : (c.tick dt).Healthy := hc

/-- The entries after a write: the new value, expiring `ttl` after now, under its key, and the old
entries elsewhere.
Source: none: infrastructure
Kind: L -/
@[simp] theorem entries_write (c : Cache) (k k' : Key) (v : Value) (t : Option Nat) :
    (c.write k v t).entries k' = if k' = k then some ⟨v, t.map (c.now + ·)⟩ else c.entries k' := by
  by_cases h : k' = k
  · subst h; simp [write]
  · simp [write, Function.update_noteq h, h]

/-- Writing what a key already holds changes nothing. Source: none: infrastructure. Kind: L -/
theorem write_eq_self {c : Cache} {k : Key} {v : Value} {t : Nat}
    (h : c.entries k = some ⟨v, some (c.now + t)⟩) : c.write k v (some t) = c := by
  unfold write
  rw [Option.map_some', ← h, Function.update_eq_self]

/-- A second write to one key overrides the first. Source: none: infrastructure. Kind: L -/
theorem write_write (c : Cache) (k : Key) (v v' : Value) (t t' : Option Nat) :
    (c.write k v t).write k v' t' = c.write k v' t' := by
  simp [write, Function.update_idem]

/-- Writes to distinct keys commute. Source: none: infrastructure. Kind: L -/
theorem write_comm (c : Cache) {k k' : Key} (hk : k ≠ k') (v v' : Value) (t t' : Option Nat) :
    (c.write k v t).write k' v' t' = (c.write k' v' t').write k v t := by
  simp [write, Function.update_comm hk]

/-- `get` is `lookup` followed by the decoder. Source: none: infrastructure. Kind: L -/
@[simp] theorem get_eq (c : Cache) (k : Key) (decode : Value → Option α) :
    c.get k decode = (c.lookup k).bind decode := rfl

/-! ## Frames -/

/-- `c'` holds the entries of `c` outside the keys `S`, on the same clock and with the same
failing writes.
Source: none: infrastructure
Kind: D -/
def Agrees (c c' : Cache) (S : Key → Prop) : Prop :=
  c'.now = c.now ∧ c'.failing = c.failing ∧ ∀ k, ¬ S k → c'.entries k = c.entries k

/-- Agreeing stores read alike outside `S`. Source: none: infrastructure. Kind: L -/
theorem Agrees.lookup_eq {c c' : Cache} {S : Key → Prop} (h : c.Agrees c' S) {k : Key}
    (hk : ¬ S k) : c'.lookup k = c.lookup k :=
  lookup_congr h.1 (h.2.2 k hk)

/-- A store agrees with itself. Source: none: infrastructure. Kind: L -/
theorem Agrees.refl (c : Cache) (S : Key → Prop) : c.Agrees c S := ⟨rfl, rfl, fun _ _ => rfl⟩

/-- Agreement outside `S` is transitive. Source: none: infrastructure. Kind: L -/
theorem Agrees.trans {c c' c'' : Cache} {S : Key → Prop} (h : c.Agrees c' S)
    (h' : c'.Agrees c'' S) : c.Agrees c'' S :=
  ⟨h'.1.trans h.1, h'.2.1.trans h.2.1, fun k hk => (h'.2.2 k hk).trans (h.2.2 k hk)⟩

/-- Agreement outside `S` is agreement outside any larger set.
Source: none: infrastructure
Kind: L -/
theorem Agrees.mono {c c' : Cache} {S T : Key → Prop} (h : c.Agrees c' S)
    (hST : ∀ k, S k → T k) : c.Agrees c' T :=
  ⟨h.1, h.2.1, fun k hk => h.2.2 k (fun hs => hk (hST k hs))⟩

/-- A write under a key of `S` keeps the store as it was outside `S`.
Source: none: infrastructure
Kind: L -/
theorem agrees_write (c : Cache) {S : Key → Prop} {k : Key} (hk : S k) (v : Value)
    (t : Nat) : c.Agrees (c.write k v (some t)) S := by
  exact ⟨rfl, rfl, fun k' hk' => Function.update_noteq (fun e : k' = k => hk' (e ▸ hk)) _ _⟩

/-- A successful `set` under a key of `S` keeps the store as it was outside `S`.
Source: none: infrastructure
Kind: L -/
theorem agrees_set {c c' : Cache} {S : Key → Prop} {k : Key} (hk : S k) {v : Value} {t : Nat}
    (h : c.set k v (some t) = some c') : c.Agrees c' S := by
  unfold set at h
  split at h
  · cases h
  · cases h; exact agrees_write c hk v t

/-- A logged write under a key of `S` keeps the store as it was outside `S`, whether or not it
fails.
Source: none: infrastructure
Kind: L -/
theorem agrees_put (c : Cache) {S : Key → Prop} {k : Key} (hk : S k) (v : Value) (t : Nat) :
    c.Agrees (c.put k v (some t)) S := by
  unfold put
  cases h : c.set k v (some t) with
  | none => exact Agrees.refl c S
  | some c' => exact agrees_set hk h

end Cache

end FlashblocksRpc
