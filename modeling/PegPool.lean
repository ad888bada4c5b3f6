import PegPool.Json.Reader
import PegPool.Json.Writer
import PegPool.Label
import PegPool.Main
import PegPool.Pool.Session
import PegPool.Proofs.AmountText
import PegPool.Proofs.Audit.Checkout
import PegPool.Proofs.Audit.Division
import PegPool.Proofs.Audit.Escapes
import PegPool.Proofs.Audit.Product
import PegPool.Proofs.Curve.Monotone
import PegPool.Proofs.Exchange.Drain
import PegPool.Proofs.Exchange.RatioDeposit
import PegPool.Proofs.Exchange.RoundTrip
import PegPool.Proofs.Pool.Backing
import PegPool.Proofs.Pool.Ledger
import PegPool.Proofs.Pool.LiveReserves
import PegPool.Proofs.Probe.Dilution
import PegPool.Proofs.Probe.Payouts
import PegPool.Proofs.Quote.AdminFee
import PegPool.Proofs.Quote.Failures
import PegPool.Proofs.Quote.Minimum
import PegPool.Proofs.Quote.Relabelling
import PegPool.Proofs.Quote.RoundTrip
import PegPool.Proofs.Ramp.Line
import PegPool.Proofs.Ramp.Pace
import PegPool.Proofs.Register
import PegPool.Proofs.Service.FeeForms
import PegPool.Proofs.Service.ReadBack
import PegPool.Proofs.Service.Refinement
import PegPool.Proofs.Service.SizeLimit
import PegPool.Register
import PegPool.Service.Endpoint
import PegPool.Proofs.Word.Caught
import PegPool.Proofs.Exchange.Caught
import PegPool.Proofs.Exchange.DepositOrder
