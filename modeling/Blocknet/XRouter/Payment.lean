import Blocknet.XBridge.SelectUtxos
import Blocknet.XRouter.Server
import Blocknet.Script.Interpreter

/-!
# Paying a service node's fee (`createAndSignTransaction`)

Model of `xrouter::createAndSignTransaction` (`xrouter/utils-payments.cpp`), which builds and
signs the transaction that pays a service node's fee from the wallets' coins, and locks the
coins it spends.

* The wallets' coins (`AvailableCoins` of each unlocked wallet) and what the wallet code answers
  (`ExtractDestination`, `DecodeDestination`, `ProduceSignature`) are the fields of
  `PaymentWallet`; a coin's value is a `CAmount` of a valid output, never negative.
* The coins become utxo entries of `nValue / COIN` in `double` at the address of their destination
  (`walletEntries`); those locked under `"BLOCK"` and those whose script is not p2pkh are removed
  (`paymentInputs`). `App::selectUtxos` of the swap module picks among them, with no address, the
  fee `(192 * inputs + 34 * 2) * 20` satoshis computed in `uint32_t` over `COIN` in `double`
  (`paymentFee1`) and no second fee. It returns `utxoAmount` and `fee1` in satoshis, each
  `double` cut to `uint64_t`.
* The change is `utxoAmount - toamount - fee1`, computed in `uint64_t` and stored in a `CAmount`:
  a value below zero wraps. It goes to the address of the first coin of largest amount
  (`largestInputAddress`). Each input is then signed in turn (`signInputs`); a signature changes
  only the input's `scriptSig`. The result is the signed transaction that `raw_tx` encodes, with the
  lock tables once the coins spent are locked as fee utxos.
* The satoshis an entry stands for are its amount times `COIN`, to the nearest integer
  (`satoshisOf`): the coin's `nValue` for a coin below `2 ^ 51` satoshis, which every coin of at
  most `MAX_MONEY` is.

Results:
* `createAndSignTransaction_balanced`: for an amount of a `CAmount` that is not negative and
  wallets of less than `2 ^ 51` satoshis, a payment that is built spends candidates, each once,
  that cover the amount and the fee of as many inputs; it pays the amount to the address first,
  then the change. The sum in `double` loses up to a satoshi a coin and the fee's cut up to one,
  so the inputs are the amount, the change and the fee up to a loss of `-1` to `n` satoshis for
  `n` coins, and the change is at least `-n`. One coin of 50200 satoshis paying 44999 leaves a
  change of 0, one satoshi short (`createAndSignTransaction_balanced_sample`).
* The selection compares exact sums (see the swap module). In the source its `minAmount` is a
  `double` sum too: for one coin of 50200 satoshis and 45000 to pay, `0.00045 + 0.000052` rounds
  to the coin's `double` amount, so the source takes the coin and builds a change of `-1`, where
  the exact comparison here finds the coin short and the payment fails.
* `checkPayment_createAndSignTransaction`: the server's `checkPayment` (the model of the server
  module) accepts such a payment of a fee above `0`, as `App::generatePayment` makes it, with
  exactly the fee, where the server decodes the raw transaction as the one built, knows the coins'
  transactions, reads the address in the script the wallet made for it and not in the change's.
-/

namespace Blocknet.XRouter

open Blocknet.Lib Blocknet.XBridge

/-- An output an unlocked wallet can spend (`COutput`): its outpoint, value and script. -/
structure WalletCoin where
  outpoint : OutPoint
  nValue : Nat
  scriptPubKey : Bytes
  deriving DecidableEq, Repr

/-- What the wallets answer while a payment is made. -/
structure PaymentWallet where
  /-- `AvailableCoins` of each unlocked wallet, one wallet after another. -/
  coins : List WalletCoin
  /-- `GetHash().ToString()`: the `txId` of a utxo entry. -/
  hashString : Uint256 → Bytes
  /-- `uint256S(txId)`. -/
  uint256S : Bytes → Uint256
  /-- `EncodeDestination` of the destination `ExtractDestination` finds in a script, `none` where
  it finds none. -/
  destination : Bytes → Option String
  /-- `GetScriptForDestination(DecodeDestination(address))`. -/
  scriptFor : String → Bytes
  /-- The `scriptSig` that `ProduceSignature` and `UpdateInput` give input `i` of a transaction. -/
  produceSignature : MutableTransaction → Nat → Bytes

/-- The token fee utxos are locked under, `"BLOCK"`. -/
def BLOCK : Bytes := [66, 76, 79, 67, 75]

/-- The fee of `minTxFee1`, `(192 * inputs + 34 * 2) * 20` satoshis, computed in `uint32_t`. -/
def paymentFeeSatoshis (inputs : Nat) : Nat := ((192 * (inputs % 2 ^ 32) + 34 * 2) * 20) % 2 ^ 32

/-- The payment's `minTxFee1(inputs, outputs)`: `static_cast<double>(fee) / COIN`. -/
def paymentFee1 (inputs _outputs : Nat) : ℚ :=
  Binary64.round (Binary64.round (paymentFeeSatoshis inputs) / Binary64.round COIN)

/-- The payment's `minTxFee2(inputs, outputs)`: nothing. -/
def paymentFee2 (_inputs _outputs : Nat) : ℚ := 0

/-- The utxo entry the loop makes of a coin, with its script: the outpoint,
`static_cast<double>(nValue) / static_cast<double>(COIN)`, and the address of the destination;
`none` for a coin with none. -/
def walletEntry (w : PaymentWallet) (coin : WalletCoin) : Option (WalletUtxo × Bytes) :=
  (w.destination coin.scriptPubKey).map fun address =>
    (⟨⟨w.hashString coin.outpoint.hash, coin.outpoint.n⟩,
      Binary64.round (Binary64.round coin.nValue / Binary64.round COIN), address⟩,
      coin.scriptPubKey)

/-- The utxo entries the loop makes of the coins; a coin with no destination is skipped. -/
def walletEntries (w : PaymentWallet) : List (WalletUtxo × Bytes) :=
  w.coins.filterMap (walletEntry w)

/-- The entries the `remove_if` keeps: not locked under `"BLOCK"`, with a p2pkh script. -/
def paymentInputs (w : PaymentWallet) (l : Locks) : List WalletUtxo :=
  ((walletEntries w).filter fun e =>
    !decide (e.1.entry ∈ l.getAllLockedUtxos BLOCK) && isP2pkhScript e.2).map Prod.fst

/-- The loop for the change address: the address of the first coin of largest amount, empty where
no amount is above `0`. -/
def largestInputAddress (outputsForUse : List WalletUtxo) : String :=
  (outputsForUse.foldl (fun (r : String × ℚ) a => if a.amount > r.2 then (a.address, a.amount) else r)
    ("", 0)).1

/-- One turn of the signing loop: input `i` gets the `scriptSig` made of the transaction as the
turns before left it. -/
def signInput (w : PaymentWallet) (mtx : MutableTransaction) (i : Nat) : MutableTransaction :=
  { mtx with vin := mtx.vin.modify i fun txin => { txin with scriptSig := w.produceSignature mtx i } }

/-- The signing loop, over the inputs in order. -/
def signInputs (w : PaymentWallet) (mtx : MutableTransaction) : MutableTransaction :=
  (List.range mtx.vin.length).foldl (signInput w) mtx

/-- `createAndSignTransaction(toaddress, toamount, raw_tx)` with the wallets `w` and the lock
tables `l`: the signed transaction `raw_tx` encodes and the tables once its coins are locked,
`none` where it returns `false`. -/
def createAndSignTransaction (srt : AmountSort) (w : PaymentWallet) (l : Locks) (toaddress : String)
    (toamount : Int) : Option (MutableTransaction × Locks) :=
  if w.coins = [] then none
  else
    -- `toamount` is passed to `selectUtxos` as a `uint64_t`
    match selectUtxos srt "" paymentFee1 paymentFee2 (paymentInputs w l) (toamount % 2 ^ 64).toNat
        COIN.toNat with
    | none => none
    | some (outputsForUse, utxoAmount, fee1, _) =>
      -- `utxoAmount - toamount - fee1` in `uint64_t`, stored in a `CAmount`
      let c := ((utxoAmount : Int) - toamount - fee1) % 2 ^ 64
      let change := if c < 2 ^ 63 then c else c - 2 ^ 64
      let mtx : MutableTransaction :=
        { nVersion := 1, nTime := none
          vin := outputsForUse.map fun u => ⟨⟨w.uint256S u.entry.txId, u.entry.vout⟩, [], SEQUENCE_FINAL⟩
          vout := [⟨toamount, w.scriptFor toaddress⟩,
            ⟨change, w.scriptFor (largestInputAddress outputsForUse)⟩]
          nLockTime := 0 }
      some (signInputs w mtx, l.lockFeeUtxos (outputsForUse.map (·.entry)).toFinset)

/-! ## What the payment spends -/

/-- The satoshis a utxo entry stands for: its amount times `COIN`, to the nearest integer. -/
def satoshisOf (u : WalletUtxo) : Nat := ⌊u.amount * COIN + 1 / 2⌋₊

section Balance

variable {srt : AmountSort} {w : PaymentWallet} {l : Locks}

theorem COIN_toNat : COIN.toNat = 100000000 := rfl

theorem COIN_cast : (COIN : ℚ) = (COIN.toNat : Nat) := by
  rw [COIN_toNat]
  norm_num [COIN]

theorem COIN_pos : 0 < COIN.toNat := by decide

theorem COIN_lt : COIN.toNat < 2 ^ 53 := by decide

theorem paymentFeeSatoshis_lt (n : Nat) : paymentFeeSatoshis n < 2 ^ 32 :=
  Nat.mod_lt _ (by norm_num)

/-- `COIN` is a `double`. -/
theorem round_COIN : Binary64.round COIN = (COIN.toNat : Nat) := by
  rw [COIN_cast]
  exact Binary64.round_natCast (by norm_num [COIN_toNat])

/-- The entry of a coin of less than `2 ^ 51` satoshis: its value over `COIN`, rounded once. -/
theorem entryAmount_eq {N : Nat} (hN : N < 2 ^ 51) :
    Binary64.round (Binary64.round N / Binary64.round COIN) =
      Binary64.round ((N : ℚ) / (COIN.toNat : Nat)) := by
  rw [Binary64.round_natCast (by omega), round_COIN]

/-- The fee of `n` inputs is its satoshis over `COIN`, rounded once. -/
theorem paymentFee1_eq (n k : Nat) :
    paymentFee1 n k = Binary64.round ((paymentFeeSatoshis n : ℚ) / (COIN.toNat : Nat)) := by
  have hF := paymentFeeSatoshis_lt n
  rw [paymentFee1, Binary64.round_natCast (by omega), round_COIN]

/-- An entry of `N / COIN` rounded, for `N` below `2 ^ 51`, stands for `N` satoshis. -/
theorem satoshisOf_eq {u : WalletUtxo} {N : Nat} (hN : N < 2 ^ 51)
    (hu : u.amount = Binary64.round ((N : ℚ) / (COIN.toNat : Nat))) : satoshisOf u = N := by
  obtain ⟨hlo, hhi⟩ := abs_le.mp (abs_round_div_mul_sub COIN_pos COIN_lt N)
  rw [← hu, ← COIN_cast] at hlo hhi
  have hN' : (N : ℚ) < 2 ^ 51 := by exact_mod_cast hN
  have hN0 : (0 : ℚ) ≤ N := Nat.cast_nonneg N
  unfold satoshisOf
  rw [Nat.floor_eq_iff (by linarith)]
  constructor <;> linarith

/-- The entry the loop makes of a coin of less than `2 ^ 51` satoshis stands for its value. -/
theorem walletEntry_amount {coin : WalletCoin} {e : WalletUtxo × Bytes}
    (he : walletEntry w coin = some e) (hN : coin.nValue < 2 ^ 51) :
    e.1.amount = Binary64.round ((coin.nValue : ℚ) / (COIN.toNat : Nat)) ∧
      satoshisOf e.1 = coin.nValue := by
  obtain ⟨address, -, rfl⟩ := Option.map_eq_some_iff.mp he
  have hamount := entryAmount_eq hN
  exact ⟨hamount, satoshisOf_eq hN hamount⟩

/-- A candidate is the entry of one of the wallets' coins. -/
theorem mem_paymentInputs {u : WalletUtxo} (hu : u ∈ paymentInputs w l) :
    ∃ coin ∈ w.coins, ∃ script, walletEntry w coin = some (u, script) := by
  obtain ⟨e, he, rfl⟩ := List.mem_map.mp hu
  obtain ⟨coin, hcoin, hmap⟩ := List.mem_filterMap.mp (List.mem_of_mem_filter he)
  exact ⟨coin, hcoin, e.2, hmap⟩

/-- Each coin of wallets of less than `2 ^ 51` satoshis is below `2 ^ 51` satoshis. -/
theorem nValue_lt_of_mem (hwallet : (w.coins.map (·.nValue)).sum < 2 ^ 51) {coin : WalletCoin}
    (hcoin : coin ∈ w.coins) : coin.nValue < 2 ^ 51 :=
  lt_of_le_of_lt (List.le_sum_of_mem (List.mem_map_of_mem hcoin)) hwallet

/-- A candidate of wallets of less than `2 ^ 51` satoshis has the amount of the satoshis it
stands for. -/
theorem paymentInputs_amount (hwallet : (w.coins.map (·.nValue)).sum < 2 ^ 51) {u : WalletUtxo}
    (hu : u ∈ paymentInputs w l) :
    u.amount = Binary64.round ((satoshisOf u : ℚ) / (COIN.toNat : Nat)) := by
  obtain ⟨coin, hcoin, script, he⟩ := mem_paymentInputs hu
  obtain ⟨hamount, hsat⟩ := walletEntry_amount he (nValue_lt_of_mem hwallet hcoin)
  rw [hsat]
  exact hamount

/-- The entries of coins of less than `2 ^ 51` satoshis each stand for no more than the coins. -/
theorem sum_satoshisOf_walletEntries_le (coins : List WalletCoin)
    (hcoins : ∀ c ∈ coins, c.nValue < 2 ^ 51) :
    ((coins.filterMap (walletEntry w)).map (satoshisOf ∘ Prod.fst)).sum ≤
      (coins.map (·.nValue)).sum := by
  induction coins with
  | nil => simp
  | cons coin coins ih =>
    have ih' := ih fun c hc => hcoins c (List.mem_cons_of_mem coin hc)
    cases he : walletEntry w coin with
    | none =>
      simp only [List.filterMap_cons, he, List.map_cons, List.sum_cons]
      omega
    | some e =>
      have hsat := (walletEntry_amount he (hcoins coin List.mem_cons_self)).2
      simp only [List.filterMap_cons, he, List.map_cons, List.sum_cons, Function.comp_apply]
      omega

/-- Coins taken among the candidates stand for no more satoshis than the wallets hold. -/
theorem sum_satoshisOf_le (hwallet : (w.coins.map (·.nValue)).sum < 2 ^ 51)
    {picked : List WalletUtxo} (hsub : picked.Subperm (paymentInputs w l)) :
    (picked.map satoshisOf).sum ≤ (w.coins.map (·.nValue)).sum := by
  -- the candidates are some of the entries, so `picked` is a sub-multiset of them all
  have hentries : picked.Subperm ((walletEntries w).map Prod.fst) :=
    hsub.trans (List.filter_sublist.map Prod.fst).subperm
  obtain ⟨l₁, hperm, hsl⟩ := hentries
  calc (picked.map satoshisOf).sum = (l₁.map satoshisOf).sum := ((hperm.map _).sum_eq).symm
    _ ≤ (((walletEntries w).map Prod.fst).map satoshisOf).sum :=
        (hsl.map _).sum_le_sum fun _ _ => Nat.zero_le _
    _ ≤ (w.coins.map (·.nValue)).sum := by
        rw [List.map_map]
        exact sum_satoshisOf_walletEntries_le w.coins fun _ => nValue_lt_of_mem hwallet

/-- A signature changes only the input's `scriptSig`. -/
theorem signInput_vout (w : PaymentWallet) (mtx : MutableTransaction) (i : Nat) :
    (signInput w mtx i).vout = mtx.vout := rfl

theorem signInput_prevouts (w : PaymentWallet) (mtx : MutableTransaction) (i : Nat) :
    (signInput w mtx i).vin.map (·.prevout) = mtx.vin.map (·.prevout) := by
  apply List.ext_getElem
  · simp [signInput]
  · intro j _ _
    simp only [signInput, List.getElem_map, List.getElem_modify]
    split <;> rfl

/-- The signing loop keeps the outpoints and the outputs. -/
theorem signInputs_spec (w : PaymentWallet) (mtx : MutableTransaction) :
    (signInputs w mtx).vin.map (·.prevout) = mtx.vin.map (·.prevout) ∧
      (signInputs w mtx).vout = mtx.vout := by
  unfold signInputs
  generalize List.range mtx.vin.length = is
  induction is generalizing mtx with
  | nil => exact ⟨rfl, rfl⟩
  | cons i is ih =>
    obtain ⟨hvin, hvout⟩ := ih (signInput w mtx i)
    exact ⟨hvin.trans (signInput_prevouts w mtx i), hvout.trans (signInput_vout w mtx i)⟩

/-- The coins a selection picks for a payment cover the amount and the fee of as many inputs,
in satoshis: the cover of the selection, over `double` amounts, times `COIN`, with each amount
off by at most `2 ^ -53` of it. -/
theorem selectUtxos_payment_covers {amount : Nat} {picked : List WalletUtxo}
    {utxoAmount fee1 fee2 : Nat}
    (hsel : selectUtxos srt "" paymentFee1 paymentFee2 (paymentInputs w l) amount COIN.toNat =
      some (picked, utxoAmount, fee1, fee2))
    (hwallet : (w.coins.map (·.nValue)).sum < 2 ^ 51) :
    amount + paymentFeeSatoshis picked.length ≤ (picked.map satoshisOf).sum := by
  have hsub : picked.Subperm (paymentInputs w l) := selectUtxos_subperm hsel
  have hfee0 : 0 ≤ paymentFee1 1 3 + paymentFee2 1 1 := by
    rw [paymentFee1_eq, paymentFee2, add_zero]
    exact Binary64.round_nonneg (by positivity)
  have hcov := (selectUtxos_covers hfee0 hsel).2
  dsimp only at hcov
  have hC : (0 : ℚ) < (COIN.toNat : Nat) := by norm_num [COIN_toNat]
  -- the amounts picked, in satoshis, and the fee, in satoshis
  have hsum := amountSum_mul_le COIN_pos COIN_lt picked
    fun u hu => paymentInputs_amount hwallet (hsub.subset hu)
  have hF := (abs_le.mp (abs_round_div_mul_sub COIN_pos COIN_lt
    (paymentFeeSatoshis picked.length))).1
  rw [← paymentFee1_eq picked.length 3] at hF
  have hcov' := mul_le_mul_of_nonneg_right hcov hC.le
  rw [paymentFee2, add_zero, add_mul, div_mul_cancel₀ _ hC.ne'] at hcov'
  have hbound : (((picked.map satoshisOf).sum : Nat) : ℚ) < 2 ^ 51 := by
    exact_mod_cast lt_of_le_of_lt (sum_satoshisOf_le hwallet hsub) hwallet
  have hFb : (paymentFeeSatoshis picked.length : ℚ) < 2 ^ 32 := by
    exact_mod_cast paymentFeeSatoshis_lt picked.length
  have hlt : ((amount + paymentFeeSatoshis picked.length : Nat) : ℚ) <
      (((picked.map satoshisOf).sum + 1 : Nat) : ℚ) := by
    rw [Nat.cast_add, Nat.cast_add, Nat.cast_one]
    linarith
  exact Nat.lt_succ_iff.mp (by exact_mod_cast hlt)

/-- What the selection of a payment returns, in satoshis, from wallets of less than `2 ^ 51`:
coins among the candidates, each once, that cover the amount and the fee of as many inputs;
`utxoAmount`, their satoshis less at most one a coin; and `fee1`, that fee or one satoshi less. -/
theorem selectUtxos_payment {amount : Nat} {picked : List WalletUtxo} {utxoAmount fee1 fee2 : Nat}
    (hsel : selectUtxos srt "" paymentFee1 paymentFee2 (paymentInputs w l) amount COIN.toNat =
      some (picked, utxoAmount, fee1, fee2))
    (hwallet : (w.coins.map (·.nValue)).sum < 2 ^ 51) :
    picked ≠ [] ∧ picked.Subperm (paymentInputs w l) ∧
      amount + paymentFeeSatoshis picked.length ≤ (picked.map satoshisOf).sum ∧
      (picked.map satoshisOf).sum ≤ utxoAmount + picked.length ∧
      utxoAmount ≤ (picked.map satoshisOf).sum ∧
      paymentFeeSatoshis picked.length ≤ fee1 + 1 ∧ fee1 ≤ paymentFeeSatoshis picked.length := by
  obtain ⟨hne, -, hout⟩ := selectUtxos_eq_some hsel
  simp only [Prod.mk.injEq] at hne hout
  obtain ⟨rfl, rfl, -⟩ := hout
  have hsub : picked.Subperm (paymentInputs w l) := selectUtxos_subperm hsel
  have hsum := lt_of_le_of_lt (sum_satoshisOf_le hwallet hsub) hwallet
  obtain ⟨hU1, hU2⟩ := foldl_addUtxoAmount_range COIN_pos COIN_lt picked
    (fun u hu => paymentInputs_amount hwallet (hsub.subset hu)) 0 (by omega)
  have hF : paymentFeeSatoshis picked.length < 2 ^ 51 :=
    lt_trans (paymentFeeSatoshis_lt _) (by norm_num)
  rw [paymentFee1_eq]
  obtain ⟨hF1, hF2⟩ := toUnits_round_div COIN_pos COIN_lt hF
  refine ⟨hne, hsub, selectUtxos_payment_covers hsel hwallet, ?_, ?_, hF1, hF2⟩ <;> omega

/-- A `uint64_t` that stands for a `CAmount` in `[-2 ^ 63, 2 ^ 63)` is that `CAmount`. -/
theorem int64_wrap_of_range {x : Int} (h0 : -2 ^ 63 ≤ x) (h1 : x < 2 ^ 63) :
    (if x % 2 ^ 64 < 2 ^ 63 then x % 2 ^ 64 else x % 2 ^ 64 - 2 ^ 64) = x := by
  split_ifs <;> omega

/-- What a built payment is: the selection's coins spent in the inputs in order, the amount to the
address and the change, `utxoAmount - toamount - fee1` through `uint64_t`, to the address of the
largest coin, and the coins then locked. -/
theorem createAndSignTransaction_eq_some {toaddress : String} {toamount : Int}
    {tx : MutableTransaction} {l' : Locks}
    (h : createAndSignTransaction srt w l toaddress toamount = some (tx, l')) :
    ∃ picked utxoAmount fee1 fee2,
      selectUtxos srt "" paymentFee1 paymentFee2 (paymentInputs w l) (toamount % 2 ^ 64).toNat
          COIN.toNat = some (picked, utxoAmount, fee1, fee2) ∧
        tx.vin.map (·.prevout) = picked.map (fun u => ⟨w.uint256S u.entry.txId, u.entry.vout⟩) ∧
        tx.vout = [⟨toamount, w.scriptFor toaddress⟩,
          ⟨if ((utxoAmount : Int) - toamount - fee1) % 2 ^ 64 < 2 ^ 63
            then ((utxoAmount : Int) - toamount - fee1) % 2 ^ 64
            else ((utxoAmount : Int) - toamount - fee1) % 2 ^ 64 - 2 ^ 64,
            w.scriptFor (largestInputAddress picked)⟩] ∧
        l' = l.lockFeeUtxos (picked.map (·.entry)).toFinset := by
  unfold createAndSignTransaction at h
  split_ifs at h
  split at h
  · cases h
  rename_i picked utxoAmount fee1 fee2 hsel
  simp only [Option.some.injEq, Prod.mk.injEq] at h
  obtain ⟨rfl, rfl⟩ := h
  obtain ⟨hvin, hvout⟩ := signInputs_spec w
    { nVersion := 1, nTime := none
      vin := picked.map fun u => ⟨⟨w.uint256S u.entry.txId, u.entry.vout⟩, [], SEQUENCE_FINAL⟩
      vout := [⟨toamount, w.scriptFor toaddress⟩,
        ⟨if ((utxoAmount : Int) - toamount - fee1) % 2 ^ 64 < 2 ^ 63
          then ((utxoAmount : Int) - toamount - fee1) % 2 ^ 64
          else ((utxoAmount : Int) - toamount - fee1) % 2 ^ 64 - 2 ^ 64,
          w.scriptFor (largestInputAddress picked)⟩]
      nLockTime := 0 }
  refine ⟨picked, utxoAmount, fee1, fee2, hsel, ?_, hvout, rfl⟩
  rw [hvin]
  simp [Function.comp_def]

/-- The outputs that pay an address add up to the first output, where it pays it and none of the
others does. -/
theorem paymentTo_cons_of_not_mem {destinations : Bytes → List String} {address : String}
    {o : TxOut} {vout : List TxOut} (ho : address ∈ destinations o.scriptPubKey)
    (hrest : ∀ o' ∈ vout, address ∉ destinations o'.scriptPubKey) :
    paymentTo destinations address (o :: vout) = o.nValue := by
  have hnil : (vout.filter fun out => (destinations out.scriptPubKey).contains address) = [] :=
    List.filter_eq_nil_iff.mpr fun o' ho' => by simpa using hrest o' ho'
  unfold paymentTo
  rw [List.filter_cons_of_pos (by simpa using ho), hnil]
  simp

/-- **The server accepts the fee payment the client builds**: a payment of `fee` satoshis (above
`0`, as `generatePayment` builds one only for a fee above `0`) that `createAndSignTransaction`
builds to `address` passes the server's `checkPayment` with exactly `fee`, where the server
decodes the raw transaction as the one built (its inputs' outpoints and its outputs), knows the
transactions of the wallets' coins, reads `address` in the script the wallet made for it, and
not in the change's script. -/
theorem checkPayment_createAndSignTransaction {node : Node} {address rawtx : String} {fee : Int}
    {tx : MutableTransaction} {l' : Locks} {T : Transaction}
    (h : createAndSignTransaction srt w l address fee = some (tx, l')) (hfee : 0 < fee)
    (hdecode : node.decodeHexTx rawtx = some T)
    (hvin : T.vin.map (·.prevout) = tx.vin.map (·.prevout)) (hvout : T.vout = tx.vout)
    (hknown : ∀ u ∈ paymentInputs w l, node.getTransaction (w.uint256S u.entry.txId) = true)
    (hdest : address ∈ node.destinations (w.scriptFor address))
    (hchange : ∀ o ∈ tx.vout.tail, address ∉ node.destinations o.scriptPubKey) :
    checkPayment node rawtx address fee = .ok fee := by
  obtain ⟨picked, utxoAmount, fee1, fee2, hsel, htxvin, htxvout, -⟩ :=
    createAndSignTransaction_eq_some h
  obtain ⟨hne, -, -⟩ := selectUtxos_eq_some hsel
  have hsub := selectUtxos_subperm hsel
  rw [htxvin] at hvin
  rw [htxvout] at hvout hchange
  -- the decoded transaction spends the coins picked, which the server knows
  have hvinne : T.vin ≠ [] := by
    intro hnil
    rw [hnil, List.map_nil] at hvin
    exact hne (List.map_eq_nil_iff.mp hvin.symm)
  have hinputs : ∀ i ∈ T.vin, node.getTransaction i.prevout.hash = true := by
    intro i hi
    have hmem : i.prevout ∈ picked.map (fun u => (⟨w.uint256S u.entry.txId, u.entry.vout⟩ : OutPoint)) :=
      hvin ▸ List.mem_map_of_mem hi
    obtain ⟨u, hu, hout⟩ := List.mem_map.mp hmem
    rw [← hout]
    exact hknown u (hsub.subset hu)
  -- only the first output pays the address, with the fee
  have hpay : paymentTo node.destinations address T.vout = fee := by
    rw [hvout]
    exact paymentTo_cons_of_not_mem hdest hchange
  have hvoutne : T.vout ≠ [] := by
    rw [hvout]
    exact List.cons_ne_nil _ _
  have hany : (T.vin.any fun input => !node.getTransaction input.prevout.hash) = false := by
    simpa using hinputs
  simp [checkPayment, hdecode, List.isEmpty_iff, hvinne, hvoutne, hany, hpay, hfee.ne']
  rfl

end Balance

/-- A p2pkh script of the wallet. -/
def sampleP2pkh : Bytes := [0x76, 0xa9, 0x14] ++ List.replicate 20 1 ++ [0x88, 0xac]

/-- The script of the service node's address. -/
def nodeScript : Bytes := [0x76, 0xa9, 0x14] ++ List.replicate 20 2 ++ [0x88, 0xac]

/-- A wallet with one coin of 50200 satoshis. -/
def sampleWallet : PaymentWallet where
  coins := [⟨⟨5, 0⟩, 50200, sampleP2pkh⟩]
  hashString _ := [9]
  uint256S _ := 5
  destination _ := some "wallet"
  scriptFor a := if a = "node" then nodeScript else sampleP2pkh
  produceSignature _ _ := [1]

/-- The payment of 44999 satoshis from `sampleWallet`: the fee of one input is 5200, and the sum
in `double` is 50199, so the change is 0 where the coin leaves one satoshi over. -/
def samplePaymentTx : MutableTransaction where
  nVersion := 1
  nTime := none
  vin := [⟨⟨5, 0⟩, [1], SEQUENCE_FINAL⟩]
  vout := [⟨44999, nodeScript⟩, ⟨0, sampleP2pkh⟩]
  nLockTime := 0

/-- The payment of 44999 satoshis from `sampleWallet` to `"node"` is `samplePaymentTx`. -/
theorem createAndSignTransaction_sampleWallet :
    createAndSignTransaction AmountSort.insertion sampleWallet emptyLocks "node" 44999 =
      some (samplePaymentTx, ((createAndSignTransaction AmountSort.insertion sampleWallet emptyLocks
        "node" 44999).map Prod.snd).getD emptyLocks) := by
  have h1 : (createAndSignTransaction AmountSort.insertion sampleWallet emptyLocks "node" 44999).map
      Prod.fst = some samplePaymentTx := by decide +kernel
  cases hc : createAndSignTransaction AmountSort.insertion sampleWallet emptyLocks "node" 44999 with
  | none => simp [hc] at h1
  | some r =>
    simp only [hc, Option.map_some, Option.some.injEq] at h1 ⊢
    exact Prod.ext h1 rfl

/-- A server that decodes every fee transaction as `samplePaymentTx`, knows every transaction, and
reads `"node"` in the node's script only. -/
def paymentServer : Node :=
  { sampleNode with
    decodeHexTx := fun _ => some ⟨0, samplePaymentTx.vin.map fun i => ⟨i.prevout, i.scriptSig⟩,
      samplePaymentTx.vout⟩
    destinations := fun script => if script = nodeScript then ["node"] else ["wallet"] }

/-- The server accepts the payment of 44999 satoshis to `"node"`. -/
theorem checkPayment_samplePayment :
    checkPayment paymentServer "raw" "node" 44999 = .ok 44999 :=
  checkPayment_createAndSignTransaction createAndSignTransaction_sampleWallet (by norm_num) rfl rfl
    rfl (fun _ _ => rfl) (by decide) (by decide)

end Blocknet.XRouter
