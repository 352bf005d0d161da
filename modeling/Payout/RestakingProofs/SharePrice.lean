/-
Purpose: What depositors can rely on over whole runs. Each operation rounds for the vault, so the price of VRT never
  falls while there are VRT; a vault whose last VRT were burned starts over at one for one. A withdrawal fee is charged
  only from a later update cycle on than the one it is checked in; the scheduled fee is always an allowed rise over the
  fee in force.
-/
import Payout.RestakingProofs.Steps

namespace Payout.Restaking

section

open Lib Vault

variable {amountIn newStBalance vrtRewardFee minAmountOut total : Nat} {summary : MintSummary} {found : Vault}

/-! ### Events of the asset accounting -/

/-- What moves the deposits and the VRT of a vault. -/
inductive AssetEvent where
  | mint (amountIn minAmountOut : Nat)
  | burn (isStakerProgramFeeWallet isStakerVaultFeeWallet : Bool) (amountIn : Nat)
  | updateBalance (newStBalance : Nat)
deriving DecidableEq, Repr

namespace Vault

def applyEvent (event : AssetEvent) (self : Vault) : Except VaultError Vault :=
  match event with
  | .mint amountIn minAmountOut => do
      let (_, after) ← self.mintWithFee amountIn minAmountOut
      pure after
  | .burn isStakerProgramFeeWallet isStakerVaultFeeWallet amountIn => do
      let (_, after) ← self.burnWithFee isStakerProgramFeeWallet isStakerVaultFeeWallet amountIn
      pure after
  | .updateBalance newStBalance => do
      let (_, after) ← self.updateBalance newStBalance
      pure after

/-- A balance update records no loss. -/
def NoLoss (self : Vault) : AssetEvent → Prop
  | .updateBalance newStBalance => self.tokensDeposited ≤ newStBalance
  | _ => True

/-- An event of a vault that has VRT, without a loss. -/
def Priced (self : Vault) (event : AssetEvent) : Prop :=
  0 < self.vrtSupply ∧ self.NoLoss event

instance (self : Vault) (event : AssetEvent) : Decidable (self.NoLoss event) := by
  unfold NoLoss
  split <;> infer_instance

instance (self : Vault) (event : AssetEvent) : Decidable (self.Priced event) :=
  inferInstanceAs (Decidable (_ ∧ _))

variable {self after : Vault}

theorem Minted.priceLe (minted : Minted self amountIn summary) :
    PriceLe self.tokensDeposited self.vrtSupply (self.afterMint amountIn summary).tokensDeposited
      (self.afterMint amountIn summary).vrtSupply :=
  priceLe_join (calculateVrtMintAmount_fair minted.minted)

theorem Burned.priceLe {summary : BurnSummary} (burned : Burned self program vault amountIn summary) :
    PriceLe self.tokensDeposited self.vrtSupply (self.afterBurn summary).tokensDeposited
      (self.afterBurn summary).vrtSupply := by
  have paid : summary.outAmount = proRata summary.burnAmount self.tokensDeposited self.vrtSupply := by
    rw [burned.split]
    rfl
  rw [afterBurn, paid]
  exact priceLe_leave (burned.burnAmount_le.trans burned.held) (proRata_mul_le _ _ _)

/-- The VRT of the reward fee are minted at a price that leaves the fee out, which is at least the old
    price. -/
theorem BalanceUpdated.priceLe (updated : BalanceUpdated self newStBalance vrtRewardFee)
    (gains : self.tokensDeposited ≤ newStBalance) :
    PriceLe self.tokensDeposited self.vrtSupply newStBalance (self.vrtSupply + vrtRewardFee) := by
  obtain ⟨fee, feeLe, fair⟩ := updated.fair
  unfold PriceLe
  have dilution : self.tokensDeposited * vrtRewardFee ≤ fee * self.vrtSupply := by
    calc self.tokensDeposited * vrtRewardFee ≤ (newStBalance - fee) * vrtRewardFee :=
          Nat.mul_le_mul_right _ (by omega)
      _ = vrtRewardFee * (newStBalance - fee) := Nat.mul_comm _ _
      _ ≤ fee * self.vrtSupply := fair
  calc self.tokensDeposited * (self.vrtSupply + vrtRewardFee)
      = self.tokensDeposited * self.vrtSupply + self.tokensDeposited * vrtRewardFee := Nat.mul_add _ _ _
    _ ≤ self.tokensDeposited * self.vrtSupply + fee * self.vrtSupply := Nat.add_le_add_left dilution _
    _ = (self.tokensDeposited + fee) * self.vrtSupply := (Nat.add_mul _ _ _).symm
    _ ≤ newStBalance * self.vrtSupply := Nat.mul_le_mul_right _ (by omega)

theorem priceLe_step {event : AssetEvent} (noLoss : self.NoLoss event) (taken : applyEvent event self = .ok after) :
    PriceLe self.tokensDeposited self.vrtSupply after.tokensDeposited after.vrtSupply := by
  cases event
  all_goals
    simp only [applyEvent, ok_iffs, Prod.exists] at taken
    obtain ⟨_, _, returned, rfl⟩ := taken
  case mint =>
    obtain ⟨checked, rfl⟩ := mintWithFee_ok returned
    exact checked.priceLe
  case burn =>
    obtain ⟨checked, rfl⟩ := burnWithFee_ok returned
    exact checked.priceLe
  case updateBalance =>
    obtain ⟨checked, rfl⟩ := updateBalance_ok returned
    exact checked.priceLe noLoss

/-- Over a sequence of events of a vault that has VRT throughout, the price never falls. -/
theorem priceLe_run (run : Run applyEvent Priced self events after) :
    PriceLe self.tokensDeposited self.vrtSupply after.tokensDeposited after.vrtSupply := by
  refine run.invariant (P := fun vault =>
    PriceLe self.tokensDeposited self.vrtSupply vault.tokensDeposited vault.vrtSupply) ?_ (PriceLe.refl _ _)
  intro vault event next price ⟨pos, noLoss⟩ taken
  exact price.trans pos (priceLe_step noLoss taken)

end Vault

/-! ### One party -/

/-- A party that mints and burns, with its VRT and what it paid and was paid. -/
structure Party where
  vault : Vault
  held : Nat
  paidIn : Nat
  takenOut : Nat

inductive PartyAction where
  /-- The deposit fee may come back to the party. -/
  | mint (amountIn minAmountOut : Nat) (ownsFeeWallet : Bool)
  /-- Part of the withdrawal fees may come back to the party. -/
  | burn (isStakerProgramFeeWallet isStakerVaultFeeWallet : Bool) (amountIn feesReturned : Nat)
deriving DecidableEq, Repr

namespace Party

/-- A party burns no more than it holds, and gets back no more fees than were paid. -/
def apply (action : PartyAction) (party : Party) : Except VaultError Party :=
  match action with
  | .mint amountIn minAmountOut ownsFeeWallet => do
      let (summary, vault) ← party.vault.mintWithFee amountIn minAmountOut
      pure { party with
        vault
        held := party.held + summary.vrtToDepositor + if ownsFeeWallet then summary.vrtToFeeWallet else 0
        paidIn := party.paidIn + amountIn }
  | .burn isStakerProgramFeeWallet isStakerVaultFeeWallet amountIn feesReturned => do
      rejectIf (party.held < amountIn) .vaultInsufficientFunds
      let (summary, vault) ← party.vault.burnWithFee isStakerProgramFeeWallet isStakerVaultFeeWallet amountIn
      rejectIf (summary.vaultFeeAmount + summary.programFeeAmount < feesReturned) .vaultInsufficientFunds
      pure { party with
        vault
        held := party.held - amountIn + feesReturned
        takenOut := party.takenOut + summary.outAmount }

/-- What a party's own actions leave: the price of the vault it found, the VRT of everybody else, and the
    tokens it paid less those it took. -/
structure Fair (found : Vault) (party : Party) : Prop where
  price : PriceLe found.tokensDeposited found.vrtSupply party.vault.tokensDeposited party.vault.vrtSupply
  others : found.vrtSupply + party.held ≤ party.vault.vrtSupply
  balance : party.vault.tokensDeposited + party.takenOut = found.tokensDeposited + party.paidIn

theorem fair_step {action : PartyAction} (pos : 0 < found.vrtSupply) (fair : Fair found party)
    (taken : apply action party = .ok after) : Fair found after := by
  obtain ⟨price, others, balance⟩ := fair
  have supplied : 0 < party.vault.vrtSupply := by omega
  cases action with
  | mint amountIn minAmountOut ownsFeeWallet =>
    simp only [apply, ok_iffs, Prod.exists] at taken
    obtain ⟨summary, vault, minted, rfl⟩ := taken
    obtain ⟨checked, rfl⟩ := mintWithFee_ok minted
    refine ⟨price.trans supplied checked.priceLe, ?_, ?_⟩
    · dsimp only [afterMint]
      split <;> omega
    · dsimp only [afterMint]
      omega
  | burn program vaultWallet amountIn feesReturned =>
    simp only [apply, ok_iffs, Prod.exists] at taken
    obtain ⟨holds, summary, vault, burned, returned, rfl⟩ := taken
    obtain ⟨checked, rfl⟩ := burnWithFee_ok burned
    have sum := party.vault.burnSummary_sum program vaultWallet amountIn
    rw [← checked.split] at sum
    have available := checked.available
    refine ⟨price.trans supplied checked.priceLe, ?_, ?_⟩
    · dsimp only [afterBurn]
      omega
    · dsimp only [afterBurn]
      omega

/-- A party that starts without VRT takes out no more than it put in. -/
theorem takenOut_le_paidIn (pos : 0 < found.vrtSupply)
    (run : Run apply (fun _ _ => True) ⟨found, 0, 0, 0⟩ actions party) : party.takenOut ≤ party.paidIn := by
  have fair : Fair found party := by
    refine run.invariant ?_ ⟨PriceLe.refl _ _, le_refl _, rfl⟩
    intro party action after fair _ taken
    exact fair_step pos fair taken
  obtain ⟨price, others, balance⟩ := fair
  -- at least as many VRT at no lower a price are worth at least as much
  have worth : found.tokensDeposited * found.vrtSupply ≤ party.vault.tokensDeposited * found.vrtSupply :=
    (Nat.mul_le_mul_left _ (by omega)).trans price
  have kept := Nat.le_of_mul_le_mul_right worth pos
  omega

end Party

/-- Starting from a vault with deposits and VRT: over every sequence of mints, burns and balance updates
    without a loss in which no event finds the vault without VRT, the price of VRT never falls, and there are
    deposits while there are VRT; and a party without VRT takes out no more than it puts in by any sequence of
    its own mints and burns. -/
theorem share_price_never_falls (vault : Vault) (deposits : 0 < vault.tokensDeposited)
    (shares : 0 < vault.vrtSupply) :
    (∀ events after, Run applyEvent Vault.Priced vault events after →
      vault.tokensDeposited * after.vrtSupply ≤ after.tokensDeposited * vault.vrtSupply ∧
        (0 < after.vrtSupply → 0 < after.tokensDeposited)) ∧
    (∀ actions party, Run Party.apply (fun _ _ => True) ⟨vault, 0, 0, 0⟩ actions party →
      party.takenOut ≤ party.paidIn) := by
  constructor
  · intro events after run
    have price := priceLe_run run
    exact ⟨price, price.assets_pos deposits⟩
  · intro actions party run
    exact Party.takenOut_le_paidIn shares run

/-- A vault with two tokens and one VRT. -/
def Sample.smallVault : Vault :=
  { empty (.wallet 3) (.wallet 4) (.wallet 1) 0 (.wallet 2) ⟨0, by decide⟩ ⟨0, by decide⟩ ⟨0, by decide⟩
      ⟨0, by decide⟩ 0 with
    vrtSupply := 1
    tokensDeposited := 2 }

open Sample

/-- A deposit of four tokens into the small vault, at two tokens for one VRT. -/
theorem share_price_never_falls_deposit :
    ∃ after, applyEvent (.mint 4 0) smallVault = .ok after ∧ after.vrtSupply = 3 ∧
      smallVault.tokensDeposited * after.vrtSupply ≤ after.tokensDeposited * smallVault.vrtSupply := by
  have taken := eq_ok_get (show (applyEvent (.mint 4 0) smallVault).toOption.isSome = true by decide)
  refine ⟨_, taken, by decide, ?_⟩
  exact ((share_price_never_falls smallVault (by decide) (by decide)).1 [.mint 4 0] _
    (.cons (by decide) taken (.refl _))).1

/-- Once the last VRT are burned the vault is empty, and the next deposit is at one for one again: from two
    tokens for one VRT the price falls to one. -/
theorem share_price_falls_through_empty_vault :
    ∃ after, Run applyEvent Vault.NoLoss smallVault [.burn false false 1, .mint 1 0] after ∧
      0 < smallVault.tokensDeposited ∧ 0 < smallVault.vrtSupply ∧
      ¬ smallVault.tokensDeposited * after.vrtSupply ≤ after.tokensDeposited * smallVault.vrtSupply :=
  ⟨_, run_exec_get (by decide), by decide, by decide, by decide⟩

/-! ### One deposit in parts -/

namespace Vault

/-- Deposit the amounts one after another, each with its own slippage bound. The first component is the VRT
    the depositor gets in total. -/
def mintInParts (self : Vault) : List (Nat × Nat) → Except VaultError (Nat × Vault)
  | [] => pure (0, self)
  | (amountIn, minAmountOut) :: deposits => do
      let (summary, next) ← self.mintWithFee amountIn minAmountOut
      let (rest, after) ← next.mintInParts deposits
      pure (summary.vrtToDepositor + rest, after)

variable {self after : Vault}

theorem mintWithFee_fee (minted : self.mintWithFee amountIn minAmountOut = .ok (summary, after)) :
    summary.vrtToFeeWallet = self.depositFeeBps.share (summary.vrtToDepositor + summary.vrtToFeeWallet) := by
  simp only [mintWithFee, ok_iffs, Prod.mk.injEq] at minted
  obtain ⟨_, _, _, _, _, _, _, charged, _, ⟨feeLe, rfl⟩, _, _, _, rfl, _⟩ := minted
  dsimp only
  rw [Nat.sub_add_cancel feeLe]
  exact Bps.feeOf_eq_share charged

/-- The parts mint some VRT at a price that never falls, and are charged at least the fee on all of them. -/
structure MintedInParts (before : Vault) (amount vrtToDepositor minted : Nat) (after : Vault) : Prop where
  eq : after = { before with
    vrtSupply := before.vrtSupply + minted
    tokensDeposited := before.tokensDeposited + amount }
  price : PriceLe before.tokensDeposited before.vrtSupply after.tokensDeposited after.vrtSupply
  charged : vrtToDepositor + before.depositFeeBps.share minted ≤ minted

theorem mintInParts_ok (shares : 0 < self.vrtSupply) (parts : self.mintInParts deposits = .ok (total, after)) :
    ∃ minted, MintedInParts self (deposits.map Prod.fst).sum total minted after := by
  induction deposits generalizing self total with
  | nil =>
    simp only [mintInParts, ok_iffs, Prod.mk.injEq] at parts
    obtain ⟨rfl, rfl⟩ := parts
    exact ⟨0, rfl, PriceLe.refl _ _, by simp⟩
  | cons deposit deposits ih =>
    simp only [mintInParts, ok_iffs, Prod.exists, Prod.mk.injEq] at parts
    obtain ⟨summary, next, first, rest, _, others, rfl, rfl⟩ := parts
    have fee := mintWithFee_fee first
    obtain ⟨checked, rfl⟩ := mintWithFee_ok first
    have supplied : 0 < (self.afterMint deposit.1 summary).vrtSupply := by
      dsimp only [afterMint]
      omega
    obtain ⟨minted, later⟩ := ih supplied others
    refine ⟨summary.vrtToDepositor + summary.vrtToFeeWallet + minted, ?_,
      checked.priceLe.trans supplied later.price, ?_⟩
    · rw [later.eq]
      simp only [afterMint, List.map_cons, List.sum_cons, Nat.add_assoc]
    · have added := self.depositFeeBps.share_add_le (summary.vrtToDepositor + summary.vrtToFeeWallet) minted
      have charged := later.charged
      dsimp only [afterMint] at charged
      omega

end Vault

/-- Splitting a deposit never pays: the amounts deposited one after another give the depositor no more VRT
    than one deposit of their sum, and mint no more VRT. -/
theorem split_deposit_never_pays (vault : Vault) (tokens : 0 < vault.tokensDeposited) (shares : 0 < vault.vrtSupply)
    (deposits : List (Nat × Nat)) (minAmountOut total : Nat) (after once : Vault) (whole : MintSummary)
    (parts : vault.mintInParts deposits = .ok (total, after))
    (single : vault.mintWithFee (deposits.map Prod.fst).sum minAmountOut = .ok (whole, once)) :
    total ≤ whole.vrtToDepositor ∧ after.vrtSupply ≤ once.vrtSupply := by
  obtain ⟨minted, split⟩ := mintInParts_ok shares parts
  have fee := mintWithFee_fee single
  obtain ⟨checked, rfl⟩ := mintWithFee_ok single
  have fewer : minted ≤ whole.vrtToDepositor + whole.vrtToFeeWallet := by
    have computed := checked.minted
    rw [calculateVrtMintAmount, if_neg (by omega), okOr_eq_ok, mulDiv_eq_some] at computed
    obtain ⟨_, _, _, quotient⟩ := computed
    rw [← quotient, Nat.le_div_iff_mul_le tokens]
    have price := split.price
    rw [split.eq] at price
    unfold PriceLe at price
    dsimp only at price
    rw [Nat.mul_add, Nat.add_mul, Nat.mul_comm _ minted] at price
    omega
  constructor
  · -- the VRT that the parts fail to mint would have paid no more fee than themselves
    obtain ⟨missing, more⟩ := Nat.exists_eq_add_of_le fewer
    have added := vault.depositFeeBps.share_add_le minted missing
    have atMost := vault.depositFeeBps.share_le missing
    have charged := split.charged
    rw [more] at fee
    omega
  · rw [split.eq]
    exact Nat.add_le_add_left fewer _

/-- Two deposits of one token mint nothing where one deposit of two mints a VRT. -/
theorem split_deposit_never_pays_two :
    ∃ after whole once, smallVault.mintInParts [(1, 0), (1, 0)] = .ok (0, after) ∧
      smallVault.mintWithFee 2 0 = .ok (whole, once) ∧ whole.vrtToDepositor = 1 ∧
      0 ≤ whole.vrtToDepositor ∧ after.vrtSupply ≤ once.vrtSupply := by
  have parts := eq_ok_get
    (show (smallVault.mintInParts [(1, 0), (1, 0)]).toOption.isSome = true by decide)
  have single := eq_ok_get (show (smallVault.mintWithFee 2 0).toOption.isSome = true by decide)
  refine ⟨_, _, _, parts, single, by decide, ?_⟩
  exact split_deposit_never_pays smallVault (by decide) (by decide) [(1, 0), (1, 0)] 0 0 _ _ _ parts single

end

open Lib State Vault

variable {config : Config} {after s s₀ s₁ s₂ s₃ : State}
  {deposit withdrawal reward deposit' withdrawal' reward' : Option Nat} {action : Action} {actions : List Action}

/-- A rise of a fee from `old` to `new` that the configuration allows: by at most the bump, or by at most the
    rate of change relative to a fee that was charged before. -/
def AllowedRise (config : Config) (old new : Bps) : Prop :=
  old.value < new.value →
    new.value - old.value ≤ config.feeBumpBps.value ∨
      0 < old.value ∧ (new.value - old.value) * maxBps / old.value ≤ config.feeRateOfChangeBps.value

theorem AllowedRise.refl (config fee) : AllowedRise config fee fee :=
  fun rises => absurd rises (lt_irrefl _)

/-- A fee the setters accept is within the cap and an allowed rise. -/
theorem changedFee_ok {current after : Bps}
    (changed : changedFee current fee config.depositWithdrawalFeeCapBps.value config.feeBumpBps.value
      config.feeRateOfChangeBps.value = .ok after) :
    after.value ≤ config.depositWithdrawalFeeCapBps.value ∧ AllowedRise config current after := by
  simp only [changedFee, checkFeeChangeOk, ok_iffs, Bps.check_eq_some, not_lt] at changed
  obtain ⟨accepted, rfl, withinCap, _, ⟨_, _, limited⟩, rfl⟩ := changed
  refine ⟨withinCap, ?_⟩
  intro rises
  split at limited
  · rename_i overBump
    right
    simp only [rejectIf_eq_ok, not_lt] at limited
    have rateLe := config.feeRateOfChangeBps.le_maxBps
    -- an increase that is not computed counts as the largest, which no rate of change allows
    cases computed : mulDiv 128 64 (accepted.value - current.value) maxBps current.value with
    | none =>
      rw [computed, Option.getD_none] at limited
      simp only [u64Max, maxBps] at limited rateLe
      omega
    | some increase =>
      rw [computed, Option.getD_some] at limited
      obtain ⟨_, charged, _, rfl⟩ := mulDiv_eq_some.mp computed
      exact ⟨by omega, limited⟩
  · rename_i withinBump
    left
    omega

/-- The invariant of a vault's fees. -/
structure FeesBounded (s : State) : Prop where
  deposit : s.vault.depositFeeBps.value ≤ s.config.depositWithdrawalFeeCapBps.value
  withdrawal : s.vault.withdrawalFeeBps.value ≤ s.config.depositWithdrawalFeeCapBps.value
  next : s.vault.nextWithdrawalFeeBps.value ≤ s.config.depositWithdrawalFeeCapBps.value
  /-- The scheduled fee was checked against the fee in force. -/
  scheduled : AllowedRise s.config s.vault.withdrawalFeeBps s.vault.nextWithdrawalFeeBps

theorem Genesis.feesBounded (genesis : Genesis s) : FeesBounded s where
  deposit := genesis.depositFee_le
  withdrawal := genesis.withdrawalFee_le
  next := by rw [genesis.nextWithdrawalFee_eq]; exact genesis.withdrawalFee_le
  scheduled := by rw [genesis.nextWithdrawalFee_eq]; exact AllowedRise.refl _ _

/-- The deposit fee `SetFees` leaves is within the cap and an allowed rise. -/
theorem FeeSet.bounded {current after : Bps} (set : FeeSet config current given after)
    (currentLe : current.value ≤ config.depositWithdrawalFeeCapBps.value) :
    after.value ≤ config.depositWithdrawalFeeCapBps.value ∧ AllowedRise config current after := by
  cases given with
  | none =>
    have same : after = current := set
    rw [same]
    exact ⟨currentLe, AllowedRise.refl config current⟩
  | some => exact changedFee_ok set

/-- What one step does to the fees: it keeps the invariant, and the fees charged rise as allowed. -/
structure FeesStepped (s after : State) : Prop where
  bounded : FeesBounded after
  deposit : AllowedRise s.config s.vault.depositFeeBps after.vault.depositFeeBps
  withdrawal : AllowedRise s.config s.vault.withdrawalFeeBps after.vault.withdrawalFeeBps

theorem feesStepped (bounded : FeesBounded s) (step : Step s action after) : FeesStepped s after := by
  cases step with
  | setFees fullEpochPassed depositSet withdrawalSet =>
    obtain ⟨depositLe, depositRise⟩ := depositSet.bounded bounded.deposit
    rcases withdrawalSet with ⟨_, rfl⟩ | ⟨_, set⟩
    · exact ⟨{ bounded with deposit := depositLe }, depositRise, AllowedRise.refl _ _⟩
    · obtain ⟨nextLe, nextRise⟩ := set.bounded bounded.withdrawal
      exact ⟨⟨depositLe, bounded.withdrawal, nextLe, nextRise⟩, depositRise, AllowedRise.refl _ _⟩
  | startUpdate =>
    -- the scheduled fee comes into force, and is from now on the fee to compare with
    exact ⟨⟨bounded.deposit, bounded.next, bounded.next, AllowedRise.refl _ _⟩, AllowedRise.refl _ _,
      bounded.scheduled⟩
  | _ => exact ⟨{ bounded with }, AllowedRise.refl _ _, AllowedRise.refl _ _⟩

theorem feesBounded_run (init : Initialized s₀) (run : State.Steps anything s₀ actions s) : FeesBounded s := by
  refine init.always run (fun _ genesis => genesis.feesBounded) ?_
  intro s action after bounded _ step
  exact (feesStepped bounded step).bounded

/-! ### Two changes of fees -/

/-- The fees were last changed at or after `slot`, and not in the future. -/
structure FeesChangedSince (slot epochLength : Nat) (s : State) : Prop where
  since : slot ≤ s.vault.lastFeeChangeSlot
  past : s.vault.lastFeeChangeSlot ≤ s.slot
  epochs : s.config.epochLength = epochLength

theorem feesChangedSince_step {slot epochLength : Nat} (changed : FeesChangedSince slot epochLength s)
    (step : Step s action after) : FeesChangedSince slot epochLength after := by
  obtain ⟨since, past, epochs⟩ := changed
  cases step with
  | setFees => exact ⟨since.trans past, le_refl _, epochs⟩
  | wait later => exact ⟨since, past.trans later, epochs⟩
  | _ => exact ⟨since, past, epochs⟩

/-- Between two changes of fees lies a full epoch, whatever happens in between. -/
theorem full_epoch_between_setFees {admin admin' : Pubkey}
    (first : s.apply (.setFees signers admin deposit withdrawal reward) = .ok s₁)
    (run : State.Steps anything s₁ actions s₂)
    (second : s₂.apply (.setFees signers' admin' deposit' withdrawal' reward') = .ok s₃) : s.epoch + 1 < s₂.epoch := by
  have started : FeesChangedSince s.slot s.config.epochLength s₁ := by
    cases step_of_apply first with
    | setFees => exact ⟨le_refl _, le_refl _, rfl⟩
    | configure _ _ _ administrative => simp [Action.administrative] at administrative
  have changed : FeesChangedSince s.slot s.config.epochLength s₂ :=
    run.invariant (fun _ _ _ kept _ taken => feesChangedSince_step kept (step_of_apply taken)) started
  cases step_of_apply second with
  | setFees fullEpochPassed depositSet withdrawalSet =>
    have epochs : s.epoch ≤ s₂.epochOf s₂.vault.lastFeeChangeSlot := by
      unfold epoch epochOf Config.epochOf
      rw [changed.epochs]
      exact Nat.div_le_div_right changed.since
    omega
  | configure _ _ _ administrative => simp [Action.administrative] at administrative

/-- On every run of a vault created by `InitializeVault`, whatever else happens: the fees stay within the cap;
    every step raises the fees charged by an allowed amount at most; and between two successful `SetFees`
    lies at least one full epoch. -/
theorem fees_bounded_and_rate_limited {s₀ s : State} {actions : List Action} (init : Initialized s₀)
    (run : State.Steps State.anything s₀ actions s) :
    (s.vault.depositFeeBps.value ≤ s.config.depositWithdrawalFeeCapBps.value ∧
      s.vault.withdrawalFeeBps.value ≤ s.config.depositWithdrawalFeeCapBps.value ∧
      s.vault.nextWithdrawalFeeBps.value ≤ s.config.depositWithdrawalFeeCapBps.value) ∧
    (∀ action after, s.apply action = .ok after →
      AllowedRise s.config s.vault.depositFeeBps after.vault.depositFeeBps ∧
        AllowedRise s.config s.vault.withdrawalFeeBps after.vault.withdrawalFeeBps) ∧
    (∀ signers admin deposit withdrawal reward s₁ between s₂ signers' admin' deposit' withdrawal' reward' s₃,
      s.apply (.setFees signers admin deposit withdrawal reward) = .ok s₁ →
      State.Steps State.anything s₁ between s₂ →
      s₂.apply (.setFees signers' admin' deposit' withdrawal' reward') = .ok s₃ →
      s.epoch + 1 < s₂.epoch) := by
  have bounded := feesBounded_run init run
  refine ⟨⟨bounded.deposit, bounded.withdrawal, bounded.next⟩, ?_, ?_⟩
  · intro action after taken
    have stepped := feesStepped bounded (step_of_apply taken)
    exact ⟨stepped.deposit, stepped.withdrawal⟩
  · intro _ _ _ _ _ _ _ _ _ _ _ _ _ _ first middle second
    exact full_epoch_between_setFees first middle second

/-- Two epochs after its creation the sample vault schedules a withdrawal fee, and charges it two
    epochs later. -/
def Sample.feeRun : List Action :=
  [.wait 20, .setFees (signers [1]) (.wallet 1) (some 10) (some 10) none, .wait 40,
    .initializeVaultUpdateStateTracker (signers [1]) (.wallet 1) .greedy]

open Sample

/-- The hypotheses are met by a run that schedules a fee and brings it into force. -/
theorem fees_bounded_and_rate_limited_sample : ∃ s, State.Steps State.anything state feeRun s ∧
    s.vault.withdrawalFeeBps.value = 10 ∧
      s.vault.withdrawalFeeBps.value ≤ s.config.depositWithdrawalFeeCapBps.value := by
  refine ⟨_, run_exec_get (by decide), by decide, ?_⟩
  exact (fees_bounded_and_rate_limited state_initialized (run_exec_get _)).1.2.1

end Payout.Restaking
