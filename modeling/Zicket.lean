import Zicket.Foundation.KeyedStore
import Zicket.Foundation.Attempt
import Zicket.Foundation.Run
import Zicket.Foundation.Fungible
import Zicket.Foundation.Tally
import Zicket.Foundation.BasisPoints
import Zicket.Host.Env
import Zicket.Payments.Types
import Zicket.Payments.World
import Zicket.Payments.Storage
import Zicket.Payments.Events
import Zicket.Payments.Purchase
import Zicket.Payments.Disputes
import Zicket.Payments.Refunds
import Zicket.Common.Validation
import Zicket.Payments.Withdrawals
import Zicket.Payments.Splits
import Zicket.Payments.Resale
import Zicket.Payments.Admin
import Zicket.Payments.Contract
import Zicket.Escrow.Book
import Zicket.Escrow.Sound
import Zicket.Escrow.Records
import Zicket.Refinement.View
import Zicket.Refinement.Postings
import Zicket.Refinement.Refunds
import Zicket.Refinement.Disputes
import Zicket.Refinement.Sales
import Zicket.Refinement.Payouts
import Zicket.Refinement.Splits
import Zicket.Refinement.Resales
import Zicket.Refinement.Admin
import Zicket.Refinement.Calls
import Zicket.Escrow.Log
import Zicket.Escrow.Totals
import Zicket.Refinement.Transfers
import Zicket.Results.Latches
import Zicket.Escrow.Repayments
import Zicket.Escrow.Shares
import Zicket.Results.Books
import Zicket.Results.Splits
import Zicket.Foundation.Serving
import Zicket.Results.SplitOrder
import Zicket.Escrow.Revenue
import Zicket.Escrow.Solvency
import Zicket.Results.Revenue
import Zicket.Foundation.Postcondition
import Zicket.Privacy.Footprint
import Zicket.Privacy.Sales
import Zicket.Privacy.Replay
import Zicket.Privacy.Records
import Zicket.Privacy.Indexes
import Zicket.Results.Replay
import Zicket.Results.Anonymity
import Zicket.Results.Holders
import Zicket.Results.Disputes
import Zicket.Results.Identity
import Zicket.Results.Isolation
import Zicket.Results.Freezes
import Zicket.Results.Authority
import Zicket.Results.Exclusion
import Zicket.Results.Conservation
import Zicket.Results.Migration
import Zicket.Foundation.SlotIndex
import Zicket.Foundation.Pages
import Zicket.Tickets.Types
import Zicket.Tickets.Storage
import Zicket.Tickets.Contract
import Zicket.Registry.Changes
import Zicket.Registry.View
import Zicket.Registry.Calls
import Zicket.Results.Tickets
import Zicket.Results.Credentials
import Zicket.Results.Recovery
import Zicket.Foundation.Holdings
import Zicket.Events.Types
import Zicket.Events.Network
import Zicket.Events.Storage
import Zicket.Events.Lifecycle
import Zicket.Events.Sales
import Zicket.Events.Claims
import Zicket.Events.Contract
import Zicket.Inventory.Changes
import Zicket.Inventory.View
import Zicket.Inventory.Edits
import Zicket.Inventory.Seats
import Zicket.Inventory.Sales
import Zicket.Inventory.Calls
import Zicket.Inventory.Supply
import Zicket.Results.Inventory
import Zicket.Lifecycle.Charter
import Zicket.Lifecycle.Stages
import Zicket.Lifecycle.Steps
import Zicket.Results.Lifecycle
import Zicket.Results.Anchors
import Zicket.Attendance.Footprint
import Zicket.Attendance.Claims
import Zicket.Results.Claims
import Zicket.Results.Attendees
import Zicket.Results.FreeClaims
import Zicket.Linked.System
import Zicket.Linked.Messages
import Zicket.Linked.Effects
import Zicket.Refinement.Terms
import Zicket.Linked.Wiring
import Zicket.Linked.Agreement
import Zicket.Linked.Minting
import Zicket.Results.Agreement
import Zicket.Results.Switches
import Zicket.Results.Postponement
import Zicket.Results.Resale
import Zicket.Factory.Contract
import Zicket.Results.Factory
import Zicket.Registry.Holdings
import Zicket.Results.Caps
import Zicket.Foundation.BigEndian
import Zicket.Verifier.Contract
import Zicket.Verifier.Canonical
import Zicket.Results.Aliasing
import Zicket.Results.Stranding
import Zicket.Results.RefundPool
import Zicket.Results.SplitRules
import Zicket.Results.BatchMint
import Zicket.Results.Rounding
import Zicket.Results.Titles
import Zicket.Results.Roll
import Zicket.Results.Tokens
import Zicket.Results.Unlock
import Zicket.Results.Offers
import Zicket.Results.Sweeps
import Zicket.Results.Admission
import Zicket.Foundation.Primality
import Zicket.Foundation.HashChain
import Zicket.Verifier.Modulus
import Zicket.Verifier.Field
import Zicket.Verifier.Proof
import Zicket.Verifier.Transcript
import Zicket.Verifier.Decoding
import Zicket.Verifier.Rounds
import Zicket.Results.Binding
import Zicket.Results.Decoding
import Zicket.Verifier.Libra
import Zicket.Results.Openings
import Zicket.Foundation.Folding
import Zicket.Verifier.Shplemini
import Zicket.Verifier.FoldEvaluations
import Zicket.Verifier.Relations
import Zicket.Verifier.Sumcheck
import Zicket.Foundation.CubeSums
import Zicket.Verifier.Interpolation
import Zicket.Results.Sumcheck
import Zicket.Verifier.Honk
import Zicket.Foundation.DegreeBounds
import Zicket.Foundation.RandomPoints
import Zicket.Foundation.SumcheckSoundness
import Zicket.Verifier.RelationDegrees
import Zicket.Verifier.Trace
import Zicket.Verifier.RoundTargets
import Zicket.Results.HonestTrace
import Zicket.Results.Cheating
import Zicket.Foundation.BatchOpening
import Zicket.Foundation.CellProducts
import Zicket.Foundation.LogDerivatives
import Zicket.Verifier.OpeningClaims
import Zicket.Verifier.OpeningScalars
import Zicket.Results.BatchedClaims
import Zicket.Foundation.MultilinearFolds
import Zicket.Results.HonestOpening
import Zicket.Foundation.RunningSums
import Zicket.Results.MaskBinding
import Zicket.Results.WrongOpening
import Zicket.Foundation.CausalAnswers
import Zicket.Verifier.Answers
import Zicket.Verifier.Writing
import Zicket.Results.CommittedProver
import Zicket.Results.Forgery
import Zicket.Verifier.TraceRows
import Zicket.Results.HonestProof
import Zicket.Results.CopyConstraints
import Zicket.Results.Lookups
import Zicket.Foundation.FixedWindow
import Zicket.Relayer.Handlers
import Zicket.Results.RelayerLimits
