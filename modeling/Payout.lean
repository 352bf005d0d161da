import Payout.Restaking.SlotToggle
import Payout.Restaking.VaultHandler
import Payout.RestakingProofs.SharePrice
import Payout.RestakingProofs.Roundings
import Payout.Restaking.InPlace
import Payout.StakeProofs.Authority
import Payout.RewardsProofs.Restart
import Payout.Bank.FeeDistribution
import Payout.SchedulerProofs.SerialOrder
import Payout.VoteProofs.CheckedProposal
import Payout.ConsensusProofs.Lockouts
import Payout.ForkChoiceProofs.InvalidMarks
import Payout.ForkChoiceProofs.Handover
import Payout.BankingStageProofs.Safety
import Payout.CostModelProofs.BlockLimits
import Payout.ProgramRuntime.InvokeContext
import Payout.Shred.MerkleTree
