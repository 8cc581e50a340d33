import FlashblocksRpc.Receipts

/-!
# What `get_balance` answers along a run

`process_payload` stores the metadata's balances last (`flashblocks.rs` 288–293), each under its
key in the map's order, and only when every step before succeeded: an update that finds no
receipts list to append to returns before them, and its balances are dropped. On a stream that
keeps to the rule for bases no assembled update does (`assembled_listed`), so every balance an
assembled update carries is stored, the later over the earlier.

* `balanceIn s l`: what the writes of the map `l` leave under the account `s`, its last entry for
  `s`; `lastBalance s blocks`: what the last of `blocks` whose map names `s` leaves.
* `storeBalances_lookup_account`: the map's writes, in order, leave its last entry.
* `BalancesAs`: every account entry is the last balance sent under it; a stored block, an update
  and a run keep it (`balancesAs_run`).
* **`getBalance_run`**: along any run from the empty cache whose balance maps name accounts and
  which keeps to the rule for bases, `get_balance(a, pending)` answers the last balance sent under
  `a`'s checksummed rendering if the node reads it as a quantity, and the base node's answer
  otherwise.
-/

namespace FlashblocksRpc

open Cache

/-! ## The last balance sent -/

/-- What the writes of the balance map `l`, in order, leave under the account `s`: its last entry
for `s`.
Source: `flashblocks.rs` 288–293
Kind: D -/
def balanceIn (s : String) : List (Key × String) → Option String
  | [] => none
  | (k, b) :: rest => (balanceIn s rest).or (if k = .account s then some b else none)

/-- The balance under `s` that the last of `blocks` whose balance map names `s` leaves.
Source: `flashblocks.rs` 288–293
Kind: D -/
def lastBalance (s : String) : List (Metadata × OpBlock) → Option String
  | [] => none
  | (m, _) :: rest => (lastBalance s rest).or (balanceIn s m.newAccountBalances)

/-- One more block: its balance for `s` if its map names `s`, else the earlier one.
Source: none: infrastructure
Kind: L -/
theorem lastBalance_append (s : String) (blocks : List (Metadata × OpBlock)) (m : Metadata)
    (block : OpBlock) : lastBalance s (blocks ++ [(m, block)]) =
      (balanceIn s m.newAccountBalances).or (lastBalance s blocks) := by
  induction blocks with
  | nil => simp [lastBalance, Option.or_none]
  | cons b blocks ih =>
    obtain ⟨m', b'⟩ := b
    rw [List.cons_append, lastBalance, lastBalance, ih, Option.or_assoc]

/-- On a healthy cache the balance writes leave, under an account, the map's last entry for it,
or what was there.
Source: `flashblocks.rs` 288–293
Kind: L -/
theorem storeBalances_lookup_account (l : List (Key × String)) {c : Cache} (hc : c.Healthy)
    (s : String) : (storeBalances l c).lookup (.account s) =
      ((balanceIn s l).map .string).or (c.lookup (.account s)) := by
  induction l generalizing c with
  | nil => simp [storeBalances, balanceIn]
  | cons p l ih =>
    obtain ⟨k, b⟩ := p
    rw [storeBalances, put_of_healthy hc, ih (hc.write _ _ _),
      lookup_write _ _ _ _ (show 0 < 10 by decide), balanceIn, Option.map_or']
    by_cases hk : k = .account s
    · subst hk; simp [Option.or_assoc]
    · simp [hk, Ne.symm hk, Option.or_none]

/-! ## Over a run -/

/-- Every account entry is the last balance sent under it among the blocks `blocks`.
Source: `flashblocks.rs` 288–293
Kind: D -/
def BalancesAs (blocks : List (Metadata × OpBlock)) (c : Cache) : Prop :=
  ∀ s, c.lookup (.account s) = (lastBalance s blocks).map .string

/-- A stored block whose receipts list is there to append to (or starts over) stores its
balances after those of the blocks before.
Source: `flashblocks.rs` 248–293
Kind: L -/
theorem balancesAs_storeBlock {blocks : List (Metadata × OpBlock)} {c c' : Cache} (hc : c'.Healthy)
    (hB : BalancesAs blocks c) (a : c.Agrees c' (·.isEarly)) (i : UInt64) {m : Metadata}
    (block : OpBlock)
    (hp : i = 0 ∨ (c'.get (.pendingReceipts m.blockNumber) Value.receiptList?).isSome) :
    BalancesAs (blocks ++ [(m, block)]) (storeBlock i m block c') := by
  intro s
  have hw : (blockWritten m block c').Healthy := (hc.write _ _ _).write _ _ _
  obtain ⟨l, e⟩ := indexBlock_of_listed hw i m block (hp.imp_right fun h => by
    simpa [blockWritten] using h)
  have a' := getAndSetTxsAndReceipts_agrees block m.blockNumber (blockWritten m block c') m
  rw [storeBlock_eq_blockWritten hc, e, storeBalances_lookup_account _ ((a'.healthy hw).write _ _ _),
    lookup_write _ _ _ _ (show 0 < 10 by decide), if_neg (by simp),
    a'.lookup_eq (by simp [Key.TxEntry, Key.isTxEntry]),
    show (blockWritten m block c').lookup (.account s) = c'.lookup (.account s) by
      simp [blockWritten],
    a.lookup_eq (k := .account s) Bool.false_ne_true, hB s, lastBalance_append, Option.map_or']

section Run

variable (decode : Bytes → Option OpTransactionSigned)

/-- An update that keeps to the rule for bases appends the block it assembles, if any, to the
balances' history.
Source: `flashblocks.rs` 149–306
Kind: L -/
theorem balancesAs_processPayload (u : FlashblocksPayloadV1) (hb : u.BaseFirst) {c : Cache}
    (hc : c.Healthy) (hr : ReceiptsReadable decode c) {blocks : List (Metadata × OpBlock)}
    (hB : BalancesAs blocks c) :
    BalancesAs (blocks ++ ((assembled decode u c).map fun a => (a.1, a.2.1)).toList)
      (processPayload decode u c) := by
  rcases processPayload_assembled decode u c with ⟨hn, a⟩ | ⟨m, block, c', -, ha, a, hp⟩
  · rw [hn, Option.map_none', Option.toList_none, List.append_nil]
    intro s
    rw [a.lookup_eq (k := .account s) Bool.false_ne_true]
    exact hB s
  · rw [ha, hp]
    exact balancesAs_storeBlock (a.healthy hc) hB a u.index block (assembled_listed decode hb hr ha)

/-- A run of such updates appends the blocks it assembles to the balances' history.
Source: `flashblocks.rs` 149–306
Kind: L -/
theorem balancesAs_run (us : List FlashblocksPayloadV1)
    (hus : ∀ u ∈ us, u.AccountsOnly ∧ u.BaseFirst) {c : Cache} (hc : c.Healthy)
    (hr : ReceiptsReadable decode c) {blocks : List (Metadata × OpBlock)} (hB : BalancesAs blocks c) :
    BalancesAs (blocks ++ assembledBlocks decode us c) (run decode us c) := by
  induction us generalizing c blocks with
  | nil => simpa [assembledBlocks] using hB
  | cons u us ih =>
    have hu := hus u (List.mem_cons_self u us)
    rw [run_cons, assembledBlocks, ← List.append_assoc]
    exact ih (fun v hv => hus v (List.mem_cons_of_mem u hv)) (healthy_processPayload decode u hc)
      (receiptsReadable_processPayload decode u hu.1 hu.2 hc hr)
      (balancesAs_processPayload decode u hu.2 hc hr hB)

variable {E : Type} (checksumCase : Address → Nat → Bool) (parseQuantity : String → Option U256)

/-- **`get_balance` answers the last balance sent**: along any run from the empty cache, the
clock standing still, whose balance maps name accounts and which carries a base only at index
`0`, `get_balance(a, pending)` is the last balance sent under `a`'s checksummed rendering by an
update whose block was assembled, if the node reads it as a quantity, and the base node's answer
otherwise.
Source: `flashblocks.rs` 149–306, `rpc.rs` 290–307
Kind: P -/
theorem getBalance_run (us : List FlashblocksPayloadV1)
    (hus : ∀ u ∈ us, u.AccountsOnly ∧ u.BaseFirst) (baseNode : Except E U256) (a : Address) :
    getBalance checksumCase parseQuantity baseNode a (run decode us Cache.empty) =
      match (lastBalance (addressToString checksumCase a)
          (assembledBlocks decode us Cache.empty)).bind parseQuantity with
      | some balance => .ok balance
      | none => baseNode := by
  have h := balancesAs_run decode us hus (c := Cache.empty) (fun _ => rfl)
    (receiptsReadable_empty decode) (show BalancesAs [] Cache.empty from fun _ => rfl)
    (addressToString checksumCase a)
  rw [List.nil_append] at h
  unfold getBalance
  rw [get_eq, h]
  cases lastBalance (addressToString checksumCase a) (assembledBlocks decode us Cache.empty) <;> rfl

/-- `getBalance_run` at one update that maps the checksummed rendering of `upperChecksummed` to a
balance.
Source: none: sample input
Kind: L -/
theorem getBalance_run_sample :
    (∀ u ∈ [balanceUpdate (addressToString (fun _ _ => true) upperChecksummed)],
      u.AccountsOnly ∧ u.BaseFirst) ∧
    getBalance (fun _ _ => true) quantityOf (.ok 0 : Except Unit U256) upperChecksummed
      (run testDecode [balanceUpdate (addressToString (fun _ _ => true) upperChecksummed)]
        Cache.empty) =
      match (lastBalance (addressToString (fun _ _ => true) upperChecksummed)
          (assembledBlocks testDecode [balanceUpdate (addressToString (fun _ _ => true)
            upperChecksummed)] Cache.empty)).bind quantityOf with
      | some balance => .ok balance
      | none => .ok 0 :=
  have hus : ∀ u ∈ [balanceUpdate (addressToString (fun _ _ => true) upperChecksummed)],
      u.AccountsOnly ∧ u.BaseFirst := fun u hu => by
    obtain rfl := List.mem_singleton.mp hu
    exact ⟨fun m hm p hp => by cases hm; simp at hp; simp [hp, Key.isAccount], fun h => (h rfl).elim⟩
  ⟨hus, getBalance_run testDecode (fun _ _ => true) quantityOf _ hus _ _⟩

/-- The update of the example sends `"0x1234"` under the checksummed rendering, and
`get_balance` answers it. -/
example : getBalance (fun _ _ => true) quantityOf (.ok 0 : Except Unit U256) upperChecksummed
    (run testDecode [balanceUpdate (addressToString (fun _ _ => true) upperChecksummed)]
      Cache.empty) = .ok 0x1234 := by
  decide

end Run

end FlashblocksRpc
