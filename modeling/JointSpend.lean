import JointSpend.Main
import JointSpend.Proofs.Analysis.Amounts
import JointSpend.Proofs.Codec.Truncation
import JointSpend.Proofs.CommandLine.Execution
import JointSpend.Proofs.Funding.Balance
import JointSpend.Proofs.Funding.Coverage
import JointSpend.Proofs.Funding.Fee
import JointSpend.Proofs.Merge.Assembly
import JointSpend.Proofs.Merge.Extraction
import JointSpend.Proofs.Merge.Readiness
import JointSpend.Proofs.Psbt.Progress
import JointSpend.Proofs.Script.Grammar
import JointSpend.Proofs.Sign.Repetition
import JointSpend.Proofs.Sign.Strictness
import JointSpend.Proofs.Spend.KeyForms
import JointSpend.Proofs.Spend.Supplying
import JointSpend.Proofs.Workflow.Sending
