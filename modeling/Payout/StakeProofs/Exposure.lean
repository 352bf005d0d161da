/-
Purpose: What a stake account must hold. An account is exposed to its whole delegation until it is deactivated, and
  from then on to what is still effective of it; it is sound when its lamports cover the exposure and the reserve.
-/
import Payout.StakeProofs.Steps

namespace Payout.StakeProgram

open Lib Payout.Runtime Except MergeKind Option

variable {kind : MergeKind} {source split : Account AccountData} {info : ValidatedSplitInfo} {sourceIsActive : Bool}
  {stakeLamports creditsObserved reserve minimumDelegation remainingStakeDelta splitStakeAmount : Nat}
  {mergedState : Option StakeStateV2} {key : Pubkey}

/-! ### What an account must hold -/

section Exposure

variable (api : Interface) (epoch : Epoch)

/-- What a delegation can still count for: all of it until it is deactivated, then what is effective. -/
def exposure (delegation : Delegation) : Nat :=
  if delegation.deactivationEpoch = u64Max then delegation.stake else api.stake delegation epoch

/-- A delegation that has begun, and has ended if it was deactivated. -/
structure Current (delegation : Delegation) : Prop where
  begun : delegation.activationEpoch ≤ epoch
  ended : delegation.deactivationEpoch = u64Max ∨ delegation.deactivationEpoch ≤ epoch

/-- The lamports of an account cover its reserve and its exposure. -/
def Sound (lamports : Nat) : StakeStateV2 → Prop
  | .initialized metadata => metadata.rentExemptReserve = api.reserve ∧ api.reserve ≤ lamports
  | .stake metadata stake _ =>
    metadata.rentExemptReserve = api.reserve ∧ Current epoch stake.delegation ∧
      exposure api epoch stake.delegation + api.reserve ≤ lamports
  | _ => True

/-- Every stake account is sound. -/
def AccountSound (account : Account AccountData) : Prop :=
  account.owner = .stake → ∀ state, account.data = .stake state → Sound api epoch account.lamports state

end Exposure

variable {lamports lamports' : Nat} {state : StakeStateV2} {metadata : Meta} {stake : Stake}

section Sound

variable {api : Interface} {epoch : Epoch} {delegation : Delegation} {account : Account AccountData}

theorem exposure_of_active (active : delegation.deactivationEpoch = u64Max) :
    exposure api epoch delegation = delegation.stake :=
  if_pos active

theorem exposure_of_deactivated (deactivated : delegation.deactivationEpoch ≠ u64Max) :
    exposure api epoch delegation = api.stake delegation epoch :=
  if_neg deactivated

theorem exposure_le (documented : api.Documented) : exposure api epoch delegation ≤ delegation.stake := by
  unfold exposure
  split
  · exact le_rfl
  · exact documented.stake_le _ _

theorem AccountSound.of_state (held : account.data = .stake state)
    (sound : Sound api epoch account.lamports state) : AccountSound api epoch account := by
  intro _ state' held'
  obtain rfl := AccountData.stake.inj (held.symm.trans held')
  exact sound

theorem Sound.mono (sound : Sound api epoch lamports state) (le : lamports ≤ lamports') :
    Sound api epoch lamports' state := by
  cases state with
  | initialized => exact ⟨sound.1, sound.2.trans le⟩
  | stake => exact ⟨sound.1, sound.2.1, sound.2.2.trans le⟩
  | uninitialized | rewardsPool => trivial

theorem AccountSound.deposit (sound : AccountSound api epoch account) (amount) :
    AccountSound api epoch { account with lamports := account.lamports + amount } :=
  fun owned state held => (sound owned state held).mono (Nat.le_add_right _ _)

theorem exposure_antitone (documented : api.Documented) (current : Current epoch delegation) (le : epoch ≤ later) :
    exposure api later delegation ≤ exposure api epoch delegation := by
  rcases eq_or_ne delegation.deactivationEpoch u64Max with active | deactivated
  · rw [exposure_of_active active, exposure_of_active active]
  · rw [exposure_of_deactivated deactivated, exposure_of_deactivated deactivated]
    exact documented.stake_antitone _ _ _ (current.ended.resolve_left deactivated) le

theorem Sound.later (documented : api.Documented) (sound : Sound api epoch lamports state)
    {later : Epoch} (le : epoch ≤ later) : Sound api later lamports state := by
  cases state with
  | initialized => exact sound
  | stake metadata stake stakeFlags =>
    obtain ⟨reserve, current, covers⟩ := sound
    have falls := exposure_antitone documented current le
    exact ⟨reserve, ⟨current.begun.trans le, current.ended.imp_right (·.trans le)⟩, by omega⟩
  | uninitialized | rewardsPool => trivial

/-- Other authorities or another lockup change nothing about the balance. -/
theorem Sound.withMeta (sound : Sound api epoch lamports state) (has : state.metadata? = some metadata)
    (reserve : changed.rentExemptReserve = metadata.rentExemptReserve) :
    Sound api epoch lamports (state.withMeta changed) := by
  cases state with
  | initialized _ | stake _ _ _ =>
    cases has
    exact ⟨reserve.trans sound.1, sound.2⟩
  | uninitialized | rewardsPool => simp [StakeStateV2.metadata?] at has

end Sound

/-! ### Accounts that merge -/

section Kinds

variable {api : Interface} {clock : Clock}

/-- A stake account that is not deactivated and holds its reserve and its whole delegation. -/
structure FullyBacked (api : Interface) (epoch : Epoch) (lamports : Nat) (metadata : Meta)
    (stake : Stake) : Prop where
  reserve : metadata.rentExemptReserve = api.reserve
  begun : stake.delegation.activationEpoch ≤ epoch
  active : stake.delegation.deactivationEpoch = u64Max
  covers : stake.delegation.stake + api.reserve ≤ lamports

theorem FullyBacked.sound (backed : FullyBacked api epoch lamports metadata stake) (stakeFlags) :
    Sound api epoch lamports (.stake metadata stake stakeFlags) := by
  refine ⟨backed.reserve, ⟨backed.begun, .inl backed.active⟩, ?_⟩
  rw [exposure_of_active backed.active]
  exact backed.covers

theorem FullyBacked.withAmount (backed : FullyBacked api epoch lamports metadata stake)
    (covers : amount + api.reserve ≤ lamports') :
    FullyBacked api epoch lamports' metadata (stake.withAmount amount) :=
  { backed with covers }

theorem FullyBacked.withCredits (creditsObserved) (backed : FullyBacked api epoch lamports metadata stake) :
    FullyBacked api epoch lamports metadata (stake.withCredits creditsObserved) :=
  { backed with }

/-- An inactive account is exposed to nothing: its reserve is all it needs. -/
theorem sound_of_inactive (documented : api.Documented) (early : clock.epoch < u64Max)
    (sound : Sound api clock.epoch lamports state)
    (kind : getIfMergeable api state lamports clock = .ok (.inactive metadata stakeLamports stakeFlags)) :
    stakeLamports = lamports ∧ metadata.rentExemptReserve = api.reserve ∧
      api.reserve ≤ lamports ∧
      ∀ {left}, api.reserve ≤ left → Sound api clock.epoch left state := by
  cases state with
  | initialized =>
    obtain ⟨rfl, rfl, -⟩ := by simpa [getIfMergeable] using kind
    exact ⟨rfl, sound.1, sound.2, fun least => ⟨sound.1, least⟩⟩
  | stake _ stake _ =>
    simp only [getIfMergeable] at kind
    split at kind
    · rename_i inactive
      obtain ⟨noneEffective, noneActivating, -⟩ := inactive
      obtain ⟨rfl, rfl, -⟩ := by simpa using kind
      obtain ⟨reserve, current, covers⟩ := sound
      have unexposed : exposure api clock.epoch stake.delegation = 0 := by
        rcases eq_or_ne stake.delegation.deactivationEpoch u64Max with active | deactivated
        · have warm := (documented.warmup stake.delegation clock.epoch current.begun (active ▸ early)).1
          rw [exposure_of_active active]
          omega
        · rw [exposure_of_deactivated deactivated]
          exact noneEffective
      exact ⟨rfl, reserve, by omega, fun least => ⟨reserve, current, by omega⟩⟩
    · split at kind
      · simp at kind
      · split at kind <;> simp at kind
  | uninitialized => simp [getIfMergeable] at kind
  | rewardsPool => simp [getIfMergeable] at kind

/-- An account that is activating or fully active was not deactivated, so all of its delegation is backed. -/
theorem backed_of_activeStake (documented : api.Documented) (sound : Sound api clock.epoch lamports state)
    (isKind : getIfMergeable api state lamports clock = .ok kind) (isActive : kind.activeStake = some stake) :
    ∃ stakeFlags, state = .stake kind.metadata stake stakeFlags ∧
      FullyBacked api clock.epoch lamports kind.metadata stake := by
  cases state with
  | stake metadata' stake' stakeFlags =>
    obtain ⟨reserve, current, covers⟩ := sound
    -- a deactivated delegation shows only effective stake, and that as deactivating
    have cooled (ended : stake'.delegation.deactivationEpoch ≤ clock.epoch) :=
      documented.cooldown stake'.delegation clock.epoch ended
    have backed (active : stake'.delegation.deactivationEpoch = u64Max) :
        FullyBacked api clock.epoch lamports metadata' stake' := by
      rw [exposure_of_active active] at covers
      exact ⟨reserve, current.begun, active, covers⟩
    simp only [getIfMergeable] at isKind
    split at isKind
    · cases isKind
      simp [activeStake] at isActive
    rename_i shows
    split at isKind
    · rename_i noneEffective
      cases isKind
      cases isActive
      refine ⟨_, rfl, backed (current.ended.resolve_right fun ended => shows ⟨noneEffective, ?_⟩)⟩
      exact ⟨(cooled ended).1, (cooled ended).2.trans noneEffective⟩
    · rename_i effective
      split at isKind
      · rename_i steady
        cases isKind
        cases isActive
        refine ⟨_, rfl, backed (current.ended.resolve_right fun ended => effective ?_)⟩
        exact (cooled ended).2.symm.trans steady.2
      · simp at isKind
  | initialized =>
    cases isKind
    simp [activeStake] at isActive
  | uninitialized => simp [getIfMergeable] at isKind
  | rewardsPool => simp [getIfMergeable] at isKind

theorem mergeDelegationStakeAndCreditsObserved_ok
    (taken : mergeDelegationStakeAndCreditsObserved stake absorbedLamports absorbedCreditsObserved = .ok merged) :
    ∃ creditsObserved,
      stakeWeightedCreditsObserved stake absorbedLamports absorbedCreditsObserved = some creditsObserved ∧
      merged = (stake.withAmount (stake.delegation.stake + absorbedLamports)).withCredits creditsObserved := by
  simp only [mergeDelegationStakeAndCreditsObserved, checkedAddFunds, ok_iffs] at taken
  obtain ⟨creditsObserved, weighted, _, ⟨-, rfl⟩, rfl⟩ := taken
  exact ⟨creditsObserved, weighted, rfl⟩

/-- An account that absorbs another is backed by the lamports of both. -/
theorem Sound.merged {source : MergeKind} (documented : api.Documented) (early : clock.epoch < u64Max)
    (sound : Sound api clock.epoch lamports state)
    (sourceSound : Sound api clock.epoch lamports' sourceState)
    (isKind : getIfMergeable api state lamports clock = .ok kind)
    (isSource : getIfMergeable api sourceState lamports' clock = .ok source)
    (merged : kind.mergedState source = .ok mergedState) :
    Sound api clock.epoch (lamports + lamports') (mergedState.getD state) := by
  have grown : Sound api clock.epoch (lamports + lamports') state := sound.mono (Nat.le_add_right _ _)
  cases kind with
  | inactive =>
    cases source with
    | inactive =>
      cases merged
      exact grown
    | activationEpoch =>
      cases merged
      exact grown
    | fullyActive => simp [MergeKind.mergedState] at merged
  | activationEpoch metadata stake stakeFlags =>
    obtain ⟨_, -, backed⟩ := backed_of_activeStake documented sound isKind rfl
    cases source with
    | inactive sourceMeta sourceLamports sourceFlags =>
      simp only [MergeKind.mergedState, checkedAddFunds, ok_iffs] at merged
      obtain ⟨_, ⟨-, rfl⟩, rfl⟩ := merged
      obtain ⟨rfl, -⟩ := sound_of_inactive documented early sourceSound isSource
      refine (backed.withAmount ?_).sound _
      have := backed.covers
      omega
    | activationEpoch sourceMeta sourceStake sourceFlags =>
      obtain ⟨_, -, sourceBacked⟩ := backed_of_activeStake documented sourceSound isSource rfl
      simp only [MergeKind.mergedState, checkedAddFunds, ok_iffs] at merged
      obtain ⟨_, ⟨-, rfl⟩, _, absorbed, rfl⟩ := merged
      obtain ⟨creditsObserved, -, rfl⟩ := mergeDelegationStakeAndCreditsObserved_ok absorbed
      refine ((backed.withAmount ?_).withCredits creditsObserved).sound _
      have := backed.covers
      have := sourceBacked.covers
      have : sourceMeta.rentExemptReserve = api.reserve := sourceBacked.reserve
      omega
    | fullyActive => simp [MergeKind.mergedState] at merged
  | fullyActive metadata stake =>
    obtain ⟨_, -, backed⟩ := backed_of_activeStake documented sound isKind rfl
    cases source with
    | fullyActive sourceMeta sourceStake =>
      obtain ⟨_, -, sourceBacked⟩ := backed_of_activeStake documented sourceSound isSource rfl
      simp only [MergeKind.mergedState, ok_iffs] at merged
      obtain ⟨_, absorbed, rfl⟩ := merged
      obtain ⟨creditsObserved, -, rfl⟩ := mergeDelegationStakeAndCreditsObserved_ok absorbed
      refine ((backed.withAmount ?_).withCredits creditsObserved).sound _
      have := backed.covers
      have := sourceBacked.covers
      omega
    | inactive => simp [MergeKind.mergedState] at merged
    | activationEpoch => simp [MergeKind.mergedState] at merged

theorem MergeKind.merge_ok {source : MergeKind} (taken : kind.merge api source clock = .ok mergedState) :
    metasCanMerge api kind.metadata source.metadata clock = .ok () ∧
      kind.mergedState source = .ok mergedState := by
  simp only [merge, bind_ok_iff] at taken
  obtain ⟨_, alike, taken⟩ := taken
  refine ⟨alike, ?_⟩
  split at taken
  · obtain ⟨_, -, taken⟩ := bind_ok_iff.mp taken
    exact taken
  · exact taken

end Kinds

/-! ### One instruction -/

section Instructions

variable {api : Interface} {invoke : InvokeContext} {stakeFlags : StakeFlags}

/-- A delegation of what an account holds beyond its reserve is backed. -/
theorem backed_of_lamports (reserve : metadata.rentExemptReserve = api.reserve)
    (enough : invoke.minimumDelegation ≤ lamports - metadata.rentExemptReserve) :
    FullyBacked api epoch lamports metadata
      { delegation := .new voterPubkey (lamports - metadata.rentExemptReserve) epoch, creditsObserved } := by
  have := getMinimumDelegation_pos invoke.isStakeRaiseMinimumDelegationTo1SolActive
  refine ⟨reserve, le_rfl, rfl, ?_⟩
  simp only [InvokeContext.minimumDelegation, Delegation.new] at enough ⊢
  omega

/-- Taking a deactivation back needs an account that still holds its whole delegation. -/
theorem Sound.redelegated (early : invoke.clock.epoch < u64Max)
    (sound : Sound api invoke.clock.epoch lamports (.stake metadata stake stakeFlags))
    (covered : stake.delegation.deactivationEpoch ≠ u64Max → api.stake stake.delegation invoke.clock.epoch ≠ 0 →
      stake.delegation.stake + metadata.rentExemptReserve ≤ lamports)
    (enough : invoke.minimumDelegation ≤ lamports - metadata.rentExemptReserve)
    (taken : redelegateStake api invoke stake (lamports - metadata.rentExemptReserve) voterPubkey voteState =
      .ok restaked) :
    Sound api invoke.clock.epoch lamports (.stake metadata restaked stakeFlags) := by
  obtain ⟨reserve, current, -⟩ := sound
  unfold redelegateStake at taken
  split at taken
  · rename_i effective
    split at taken
    · rename_i rescinds
      cases taken
      have covers := covered (rescinds.2 ▸ early.ne) effective
      rw [reserve] at covers
      have backed : FullyBacked api invoke.clock.epoch lamports metadata (stake.deactivatedAt u64Max) :=
        ⟨reserve, current.begun, rfl, covers⟩
      exact backed.sound stakeFlags
    · simp at taken
  · cases taken
    exact (backed_of_lamports reserve enough).sound stakeFlags

theorem Sound.deactivated (documented : api.Documented)
    (sound : Sound api invoke.clock.epoch lamports (.stake metadata stake stakeFlags))
    (taken : api.deactivate stake invoke.clock.epoch = .ok stopped) :
    Sound api invoke.clock.epoch lamports (.stake metadata stopped stakeFlags) := by
  obtain ⟨active, rfl⟩ := documented.deactivate_ok _ _ _ taken
  obtain ⟨reserve, current, covers⟩ := sound
  rw [exposure_of_active active] at covers
  refine ⟨reserve, ⟨current.begun, .inr le_rfl⟩, ?_⟩
  have le : exposure api invoke.clock.epoch (stake.deactivatedAt invoke.clock.epoch).delegation ≤
      stake.delegation.stake := exposure_le documented
  omega

theorem Sound.withdrawn (early : invoke.clock.epoch < u64Max)
    (sound : Sound api invoke.clock.epoch lamports state)
    (reserved : withdrawReserve api invoke key signers state = .ok (lockup, reserve, isStaked))
    (left : reserve ≤ lamports') : Sound api invoke.clock.epoch lamports' state := by
  cases state with
  | stake metadata stake =>
    simp only [withdrawReserve, checkedAddFunds, ok_iffs, Prod.mk.injEq] at reserved
    obtain ⟨_, -, _, ⟨-, rfl⟩, -, rfl, -⟩ := reserved
    obtain ⟨reserve, current, -⟩ := sound
    refine ⟨reserve, current, ?_⟩
    rw [reserve] at left
    rcases eq_or_ne stake.delegation.deactivationEpoch u64Max with active | deactivated
    · rw [if_neg (active ▸ Nat.not_le_of_lt early)] at left
      rw [exposure_of_active active]
      exact left
    · rw [if_pos (current.ended.resolve_left deactivated)] at left
      rw [exposure_of_deactivated deactivated]
      exact left
  | initialized =>
    simp only [withdrawReserve, ok_iffs, Prod.mk.injEq] at reserved
    obtain ⟨_, -, -, rfl, -⟩ := reserved
    exact ⟨sound.1, sound.1 ▸ left⟩
  | uninitialized => trivial
  | rewardsPool => trivial

theorem Sound.freed (documented : api.Documented) (early : invoke.clock.epoch < u64Max)
    (sound : Sound api invoke.clock.epoch source.lamports state)
    (isKind : getIfMergeable api state source.lamports invoke.clock = .ok kind)
    (free : freeLamports source kind = .ok sourceFreeLamports) (something : lamports ≠ 0)
    (enough : lamports ≤ sourceFreeLamports) :
    Sound api invoke.clock.epoch (source.lamports - lamports) state := by
  cases kind with
  | inactive metadata stakeLamports stakeFlags =>
    cases free
    obtain ⟨rfl, reserve, -, unexposed⟩ := sound_of_inactive documented early sound isKind
    exact unexposed (by omega)
  | fullyActive metadata stake =>
    cases free
    obtain ⟨stakeFlags, rfl, backed⟩ := backed_of_activeStake documented sound isKind rfl
    have reserve : metadata.rentExemptReserve = api.reserve := backed.reserve
    exact FullyBacked.sound ⟨reserve, backed.begun, backed.active, by omega⟩ stakeFlags
  | activationEpoch => simp [freeLamports] at free

/-- An account that stake is moved from keeps the lamports of the rest. -/
theorem FullyBacked.remaining (backed : FullyBacked api epoch lamports metadata stake)
    (enough : moved ≤ stake.delegation.stake) (covers : metadata.rentExemptReserve + moved ≤ lamports) :
    Sound api epoch (lamports - moved)
      (remainingState metadata stake (stake.delegation.stake - moved)) := by
  have reserve := backed.reserve
  unfold remainingState
  split
  · exact ⟨reserve, by omega⟩
  · refine (backed.withAmount ?_).sound _
    have := backed.covers
    omega

section

variable (documented : api.Documented)
include documented

/-- An account that stake is moved to gets the lamports with it. -/
theorem FullyBacked.received {source : Meta} (early : invoke.clock.epoch < u64Max)
    (backed : FullyBacked api invoke.clock.epoch lamports source sourceStake)
    (sound : Sound api invoke.clock.epoch lamports' state)
    (isKind : getIfMergeable api state lamports' invoke.clock = .ok kind)
    (taken : receivedStake sourceStake moved minimumDelegation kind = .ok (destinationMeta, destinationStake)) :
    FullyBacked api invoke.clock.epoch (lamports' + moved) destinationMeta destinationStake := by
  cases kind with
  | fullyActive metadata stake =>
    obtain ⟨_, -, destinationBacked⟩ := backed_of_activeStake documented sound isKind rfl
    simp only [receivedStake, bind_ok_iff, pure_ok_iff, Prod.mk.injEq] at taken
    obtain ⟨_, -, _, -, _, -, _, absorbed, rfl, rfl⟩ := taken
    obtain ⟨creditsObserved, -, rfl⟩ := mergeDelegationStakeAndCreditsObserved_ok absorbed
    refine (destinationBacked.withAmount ?_).withCredits creditsObserved
    have := destinationBacked.covers
    omega
  | inactive metadata stakeLamports stakeFlags =>
    obtain ⟨-, reserve, holds, -⟩ := sound_of_inactive documented early sound isKind
    simp only [receivedStake, bind_ok_iff, pure_ok_iff, Prod.mk.injEq] at taken
    obtain ⟨_, -, rfl, rfl⟩ := taken
    -- the inactive account takes over the delegation of the source, for the lamports moved
    have covers : moved + api.reserve ≤ lamports' + moved := by omega
    exact ⟨reserve, backed.begun, backed.active, covers⟩
  | activationEpoch => simp [receivedStake] at taken

/-- A reward is effective at most in full if the whole delegation was backed; a part of a delegation that is effective
    may grow by more than the delegation, as it is rounded. -/
theorem Sound.rewarded (sound : Sound api epoch lamports (.stake metadata stake stakeFlags))
    (covered : stake.delegation.deactivationEpoch ≠ u64Max →
      stake.delegation.stake + metadata.rentExemptReserve ≤ lamports) :
    Sound api epoch (lamports + stakeReward) (.stake metadata
      ((stake.withAmount (stake.delegation.stake + stakeReward)).withCredits creditsObserved) stakeFlags) := by
  obtain ⟨reserve, current, covers⟩ := sound
  refine ⟨reserve, ⟨current.begun, current.ended⟩, ?_⟩
  have all : stake.delegation.stake + api.reserve ≤ lamports := by
    rcases eq_or_ne stake.delegation.deactivationEpoch u64Max with active | deactivated
    · rwa [exposure_of_active active] at covers
    · exact reserve ▸ covered deactivated
  have le : exposure api epoch { stake.delegation with stake := stake.delegation.stake + stakeReward } ≤
      stake.delegation.stake + stakeReward := exposure_le documented
  change exposure api epoch { stake.delegation with stake := stake.delegation.stake + stakeReward } +
    api.reserve ≤ lamports + stakeReward
  omega

section

variable {rest part : Stake}
  (sound : Sound api invoke.clock.epoch source.lamports (.stake metadata stake stakeFlags))
  (valid : validateSplitAmount api source split lamports metadata minimumDelegation sourceIsActive = .ok info)
  (amounts : splitStakeAmounts info metadata stake split.lamports lamports minimumDelegation =
    .ok (remainingStakeDelta, splitStakeAmount))
  (parted : api.split stake remainingStakeDelta splitStakeAmount = .ok (rest, part))

include sound valid amounts parted

/-- What stays behind of a split is backed, if the account held its whole delegation. -/
theorem Sound.splitRest
    (covered : lamports ≠ source.lamports → stake.delegation.deactivationEpoch ≠ u64Max →
      stake.delegation.stake + metadata.rentExemptReserve ≤ source.lamports) :
    Sound api invoke.clock.epoch (source.lamports - lamports)
      (if lamports = source.lamports then .uninitialized else .stake metadata rest stakeFlags) := by
  split
  · trivial
  rename_i keeps
  obtain ⟨enough, -, -, rfl⟩ := validateSplitAmount_ok valid
  obtain ⟨closes, -⟩ | ⟨-, -, rfl, -⟩ := splitStakeAmounts_ok amounts
  · have : source.lamports - lamports = 0 := closes
    omega
  obtain ⟨delta, rfl, -⟩ := documented.split_ok _ _ _ _ _ parted
  obtain ⟨reserve, current, covers⟩ := sound
  refine ⟨reserve, ⟨current.begun, current.ended⟩, ?_⟩
  have le : exposure api invoke.clock.epoch (stake.withAmount (stake.delegation.stake -
      remainingStakeDelta)).delegation ≤ stake.delegation.stake - remainingStakeDelta := exposure_le documented
  rcases eq_or_ne stake.delegation.deactivationEpoch u64Max with active | deactivated
  · rw [exposure_of_active active] at covers
    omega
  · have := covered keeps deactivated
    omega

theorem Sound.splitPart (sized : split.dataLen = api.sizeOf) (something : 0 < splitStakeAmount) :
    Sound api invoke.clock.epoch (split.lamports + lamports) (.stake
      { metadata with rentExemptReserve := info.destinationRentExemptReserve } part stakeFlags) := by
  obtain ⟨enough, -, -, rfl⟩ := validateSplitAmount_ok valid
  obtain ⟨-, -, rfl⟩ := documented.split_ok _ _ _ _ _ parted
  obtain ⟨reserve, current, -⟩ := sound
  have reserves : api.minimumBalance split.dataLen = api.reserve := congrArg api.minimumBalance sized
  refine ⟨reserves, ⟨current.begun, current.ended⟩, ?_⟩
  have le : exposure api invoke.clock.epoch (stake.withAmount splitStakeAmount).delegation ≤
      splitStakeAmount := exposure_le documented
  rcases splitStakeAmounts_ok amounts with ⟨-, -, amount⟩ | ⟨-, -, -, amount⟩
  · omega
  · dsimp only at amount
    omega

end

/-- A split of an account that is not delegated leaves the reserve, or nothing. -/
theorem Sound.splitUndelegated (sound : Sound api invoke.clock.epoch source.lamports (.initialized metadata))
    (valid : validateSplitAmount api source split lamports metadata 0 sourceIsActive = .ok info) :
    Sound api invoke.clock.epoch (source.lamports - lamports)
      (if lamports = source.lamports then .uninitialized else .initialized metadata) := by
  split
  · trivial
  rename_i keeps
  obtain ⟨enough, kept, -, -⟩ := validateSplitAmount_ok valid
  have fits : api.reserve ≤ 2 ^ 64 - 1 := documented.minimumBalance_le _
  have least := le_saturatingAdd (b := 0) fits
  rw [sound.1] at kept
  exact ⟨sound.1, by omega⟩

end

end Instructions

end Payout.StakeProgram
