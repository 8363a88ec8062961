import Billiard.Main
import Billiard.Script
import Billiard.Proofs.Pending
import Billiard.Proofs.Call
import Billiard.Proofs.Lateness
import Billiard.Proofs.Reaction
import Billiard.Proofs.Waiting
import Billiard.Proofs.Exact
import Billiard.Proofs.Clearance
import Billiard.Proofs.Exchange
import Billiard.Proofs.Standstill
import Billiard.Proofs.Ahead
import Billiard.Proofs.Progress
import Billiard.Proofs.Roster
import Billiard.Proofs.Elapsed
import Billiard.Proofs.Beats
import Billiard.Proofs.Deliveries
import Billiard.Proofs.Binary
import Billiard.Proofs.Shortest
import Billiard.Proofs.Rounding
import Billiard.Proofs.Numeral
import Billiard.Proofs.Quotation
import Billiard.Proofs.Spacing
import Billiard.Proofs.Reread
import Billiard.Proofs.Short
import Billiard.Proofs.Reload
import Billiard.Proofs.Separation
import Billiard.Proofs.Causality
import Billiard.Proofs.Accounts
import Billiard.Proofs.Undisturbed
import Billiard.Proofs.Energy
import Billiard.Proofs.Reflection
import Billiard.Proofs.Observation
import Billiard.Proofs.Repeats
import Billiard.Proofs.Corners
import Billiard.Proofs.Leaving
import Billiard.Proofs.Touching
import Billiard.Proofs.Reaching
import Billiard.Proofs.Abreast
import Billiard.Proofs.Foremost
import Billiard.Proofs.Momentum
import Billiard.Proofs.Recoil
import Billiard.Proofs.Horizon
import Billiard.Proofs.Frames
import Billiard.Proofs.Showing
import Billiard.Proofs.Sparing
import Billiard.Proofs.Stalling
import Billiard.Proofs.Renewal
import Billiard.Proofs.Usable
import Billiard.Proofs.Arguments
import Billiard.Proofs.Scattering
import Billiard.Proofs.Orientation
import Billiard.Proofs.Lockstep
import Billiard.Proofs.Reversal
import Billiard.Proofs.Endless
import Billiard.Proofs.Skipping
