import SurfaceReuse.Pending.Lemmas
import SurfaceReuse.Pending.History
import SurfaceReuse.Scenario.Play
import SurfaceReuse.Startup
import SurfaceReuse.Pending.Values
import SurfaceReuse.Proofs.Custody
import SurfaceReuse.Proofs.Life
import SurfaceReuse.Proofs.CustodyMoves
import SurfaceReuse.Proofs.Ownership
import SurfaceReuse.Proofs.Hooks
import SurfaceReuse.Proofs.Identity
import SurfaceReuse.Proofs.Desk
import SurfaceReuse.Proofs.Reservations
import SurfaceReuse.Proofs.Ledger
import SurfaceReuse.Proofs.Waiting
import SurfaceReuse.Proofs.Parking
import SurfaceReuse.Proofs.Held
import SurfaceReuse.Proofs.SingleOwner
import SurfaceReuse.Proofs.Completion
import SurfaceReuse.Proofs.Idle
import SurfaceReuse.Proofs.Places
import SurfaceReuse.Proofs.CacheBound
import SurfaceReuse.Proofs.IdleOrder
import SurfaceReuse.Proofs.IdleAges
import SurfaceReuse.Proofs.Demand
import SurfaceReuse.Proofs.EarlyCompletion
import SurfaceReuse.Proofs.Tally
import SurfaceReuse.Proofs.Accounts
import SurfaceReuse.Proofs.Statistics
import SurfaceReuse.Proofs.Signals
import SurfaceReuse.Proofs.Teardown
import SurfaceReuse.Proofs.Poisoned
import SurfaceReuse.Proofs.Lifetime
import SurfaceReuse.Proofs.Journal
import SurfaceReuse.Proofs.ReuseShare
import SurfaceReuse.Proofs.Reports
import SurfaceReuse.Proofs.ByteTotals
import SurfaceReuse.Proofs.Plain
import SurfaceReuse.Proofs.Observation
import SurfaceReuse.Proofs.Vacancies
import SurfaceReuse.Proofs.Requests
import SurfaceReuse.Proofs.Acquisition
import SurfaceReuse.Proofs.Maintenance
import SurfaceReuse.Proofs.RightSizing
import SurfaceReuse.Proofs.Peak
import SurfaceReuse.Proofs.Library
import SurfaceReuse.Proofs.Subscriber
import SurfaceReuse.Proofs.SlotAutomata
import SurfaceReuse.Proofs.SlotHistories
