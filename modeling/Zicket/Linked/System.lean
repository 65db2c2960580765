import Zicket.Events.Contract
import Zicket.Tickets.Contract

/-! The three contracts linked with each other. A call of the event contract runs the calls
it makes in the other two; buying a listed ticket runs the transfer in the ticket contract.
Nobody signs for a contract: its authorization comes with the calls it makes itself. -/

namespace Zicket.Linked

open Host Foundation

structure Links where
  events : Address
  payments : Address
  tickets : Address
  distinct : [events, payments, tickets].Nodup
  crypto : Crypto
  networkId : BytesN 32
  verdict : Address → Bytes → Bytes → Bool

structure Outside where
  payments : Payments.World
  tickets : Tickets.World

abbrev World := Events.World Outside

namespace Links

variable (links : Links)

def IsContract (a : Address) : Prop := a ∈ [links.events, links.payments, links.tickets]

instance (a : Address) : Decidable (links.IsContract a) := inferInstanceAs (Decidable (_ ∈ _))

/-- The invocation without the signatures that nobody can give. -/
def signed (invocation : Invocation) : Invocation :=
  { invocation with
    authorized := fun a => invocation.authorized a && !decide (links.IsContract a) }

def calling (env : Env) (callee : Address) : Env :=
  { env with
    currentContract := callee
    authorized := fun a => env.authorized a || decide (a = env.currentContract) }

def callPayments (env : Env) (contract : Address) (c : Payments.Call) (s : Outside) :
    Option Outside :=
  if contract = links.payments then
    (c.exec (calling env links.payments) s.payments).toOption.map
      fun payments => { s with payments }
  else none

def callTickets (env : Env) (contract : Address) (c : Tickets.Call) (s : Outside) :
    Option Outside :=
  if contract = links.tickets then
    (c.exec (calling env links.tickets) s.tickets).toOption.map fun tickets => { s with tickets }
  else none

/-- A question to the payments contract; the answer leaves everything as it is. -/
def askPayments {α : Type} (contract : Address) (answer : Payments.World → Payments.Attempt α)
    (s : Outside) : Option (α × Outside) :=
  if contract = links.payments then (answer s.payments).toOption.map (·, s) else none

def askTickets {α : Type} (contract : Address) (answer : Tickets.World → Tickets.Attempt α)
    (s : Outside) : Option (α × Outside) :=
  if contract = links.tickets then (answer s.tickets).toOption.map (·, s) else none

def network : Events.Network Outside where
  networkId := links.networkId
  getAcceptedToken _ p := links.askPayments p (·.getAcceptedToken)
  syncEventConfig env p self e terms := links.callPayments env p (.syncEventConfig self e terms)
  syncRevenueSplits env p self e splits := links.callPayments env p (.syncRevenueSplits self e splits)
  cancelEvent env p e organizer := links.callPayments env p (.cancelEvent e organizer)
  postponeEvent env p e organizer deadline :=
    links.callPayments env p (.postponeEvent e organizer deadline)
  resumeEvent env p e organizer := links.callPayments env p (.resumeEvent e organizer)
  paymentsTicket _ p id := links.askPayments p (·.getTicket id)
  requestPostponementRefund env p caller id :=
    links.callPayments env p (.requestPostponementRefund caller id)
  payForTicket env p nonce payer e amount emailHash token level nullifier stealthKey s :=
    -- the token takes the event contract's money only in a call the event contract makes
    if payer = env.currentContract then none
    else links.callPayments env p
      (.payForTicket nonce payer e amount emailHash token level nullifier stealthKey) s
  withdrawRevenue env p e recipient := links.callPayments env p (.withdrawRevenue e recipient)
  withdrawSplit env p recipient e := links.callPayments env p (.withdrawSplit recipient e)
  flagCohost env p primary e recipient := links.callPayments env p (.flagCohost primary e recipient)
  trySetEventContract env t admin self s :=
    (links.callTickets env t (.setEventContract admin self) s).getD s
  mintTicket env t e organizer owner := links.callTickets env t (.mintTicket e organizer owner)
  batchMintTicket env t e organizer owner count :=
    links.callTickets env t (.batchMintTicket e organizer owner count)
  getTicketsByOwner _ t owner := links.askTickets t fun w => .ok (w.getTicketsByOwner owner)
  getTicket _ t id := links.askTickets t (·.getTicket id)
  cancelTicket env t id caller := links.callTickets env t (.cancelTicket id caller)
  tryVerify _ verifier proof inputs s := (links.verdict verifier proof inputs, s)

def eventsAt : Deployment := { currentContract := links.events, crypto := links.crypto }

def paymentsAt : Deployment := { currentContract := links.payments, crypto := links.crypto }

def ticketsAt : Deployment := { currentContract := links.tickets, crypto := links.crypto }

/-- A call that the payments contract makes, in a transaction with these signatures. -/
def byPayments (invocation : Invocation) : Env :=
  calling ⟨links.paymentsAt, links.signed invocation⟩ links.tickets

/-- The payments contract's invocation: the ticket contract answers its transfers. -/
def toPayments (invocation : Invocation) (tickets : Tickets.World) : Invocation :=
  { links.signed invocation with
    adminTransferTicket := fun contract operator src dst id =>
      decide (contract = links.tickets) &&
        (Tickets.Call.adminTransferTicket operator src dst id).succeeds
          (links.byPayments invocation) tickets }

/-- The transfer in the ticket contract that goes with a purchase of a listed ticket. -/
def transferOf (payments : Payments.World) : Payments.Call → Option Tickets.Call
  | .buyResaleTicket buyer id =>
    (payments.getResaleListing id).map fun listing =>
      .adminTransferTicket links.payments listing.seller buyer id
  | _ => none

def transferred (invocation : Invocation) (c : Payments.Call) (s : Outside) : Tickets.World :=
  match links.transferOf s.payments c with
  | some transfer => commit s.tickets (transfer.exec (links.byPayments invocation) s.tickets)
  | none => s.tickets

end Links

inductive Step where
  | events (invocation : Invocation) (c : Events.Call)
  | payments (invocation : Invocation) (c : Payments.Call)
  | tickets (invocation : Invocation) (c : Tickets.Call)
  | mint (token dst : Address) (amount : ℤ)
  | pay (token src dst : Address) (amount : ℤ)

namespace Links

variable (links : Links)

def succeeds (w : World) : Step → Bool
  | .events invocation c => c.succeeds links.network ⟨links.eventsAt, links.signed invocation⟩ w
  | .payments invocation c =>
    c.succeeds ⟨links.paymentsAt, links.toPayments invocation w.outside.tickets⟩ w.outside.payments
  | .tickets invocation c => c.succeeds ⟨links.ticketsAt, links.signed invocation⟩ w.outside.tickets
  | .mint .. | .pay .. => true

def nextOutside (s : Outside) : Step → Outside
  | .events .. => s
  | .payments invocation c =>
    let at_ := links.toPayments invocation s.tickets
    if c.succeeds ⟨links.paymentsAt, at_⟩ s.payments then
      { payments := s.payments.next links.paymentsAt (.call at_ c)
        tickets := links.transferred invocation c s }
    else s
  | .tickets invocation c =>
    { s with tickets := s.tickets.next links.ticketsAt ⟨links.signed invocation, c⟩ }
  | .mint token dst amount =>
    { s with payments := s.payments.next links.paymentsAt (.mint token dst amount) }
  | .pay token src dst amount =>
    { s with payments := s.payments.next links.paymentsAt (.pay token src dst amount) }

def next (w : World) : Step → World
  | .events invocation c =>
    Events.World.next links.network links.eventsAt w (.call (links.signed invocation) c)
  | step => { w with outside := links.nextOutside w.outside step }

end Links

structure Setup where
  admin : Address
  token : Address
  feeBps : ℕ
  wallet : Address
  balances : Balances Address Address
  feeBps_le : feeBps ≤ 10000

def Setup.deployed (setup : Setup) : World :=
  Events.deployed
    { payments := Payments.deployed setup.balances, tickets := Tickets.deployed }

namespace Links

variable (links : Links) (setup : Setup)

def opened : World where
  storage := ((Store.empty.set .admin setup.admin).set .ticketContract links.tickets).set
    .paymentsContract links.payments
  outside :=
    { payments :=
        ((((((Payments.deployed setup.balances).setAdmin setup.admin).setAcceptedToken
          setup.token).setPlatformFeeBps setup.feeBps).setPlatformWallet setup.wallet).setEventContract
            links.events).setTicketContract links.tickets
      tickets :=
        ((Tickets.deployed.set .admin setup.admin).set .paymentsContract links.payments).set
          .eventContract links.events }
  events := []

def linking (invocation : Invocation) : List Step :=
  [.payments invocation
      (.initialise setup.admin setup.token setup.feeBps setup.wallet links.events),
    .payments invocation (.setTicketContract setup.admin links.tickets),
    .tickets invocation (.initialise setup.admin links.payments),
    .events invocation (.initialise setup.admin links.tickets links.payments)]

end Links

namespace Sample

export Payments.Sample (admin organizer token bob amy concert festival invocation)
export Events.Sample (params)

def links : Links where
  events := Payments.Sample.eventContract
  payments := Payments.Sample.deployment.currentContract
  tickets := ⟨7⟩
  distinct := by decide
  crypto := Payments.Sample.crypto
  networkId := Vector.replicate 32 0
  verdict _ _ _ := false

def setup : Setup where
  admin
  token
  feeBps := 0
  wallet := admin
  balances t a := if t = token ∧ (a = bob ∨ a = amy) then 1000 else 0
  feeBps_le := by decide

def events (ledger : ℕ) (c : Events.Call) : Step := .events (invocation ledger) c

def payments (ledger : ℕ) (c : Payments.Call) : Step := .payments (invocation ledger) c

def announced : List Step := [events 1 (.createEvent params)]

def onSale : List Step :=
  announced ++ [events 2 (.updateEventStatus organizer concert .active)]

def buys (ledger nonce : ℕ) (payer : Address) : Step :=
  payments ledger (.payForTicket nonce payer concert 100 none token .standard none none)

end Sample

end Zicket.Linked
