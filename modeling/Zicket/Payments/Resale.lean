import Zicket.Payments.Refunds

/-! The secondary market: listing a ticket, delisting it and buying a listed one. -/

namespace Zicket.Payments

open Host Foundation

def listTicketForResale (env : Env) (seller : Address) (ticketId : ℕ) (price : ℤ) (w : World) :
    Attempt World := do
  requireNotPaused w
  requireAuth env seller
  let ticket ← w.getTicket ticketId
  require (ticket.owner = some seller) .unauthorized
  let config ← okOr (w.getEventConfig ticket.eventId) .invalidOrganizer
  let payment ← w.getPayment ticket.paymentId
  require (¬(payment.amount = 0 ∧ 0 < price ∧ config.allowFreeTicketTransfer = false))
    .invalidAmount
  require (¬(config.allowFreeTicketTransfer = false ∧ payment.amount = 0)) .invalidAmount
  require (¬(payment.amount = 0 ∧ 0 < price)) .invalidAmount
  require (∀ maxPrice, config.maxResalePrice = some maxPrice → price ≤ maxPrice) .invalidAmount
  return w.saveResaleListing ticketId { price, seller }

def delistTicket (env : Env) (seller : Address) (ticketId : ℕ) (w : World) : Attempt World := do
  requireNotPaused w
  requireAuth env seller
  let listing ← okOr (w.getResaleListing ticketId) .ticketNotFound
  require (listing.seller = seller) .unauthorized
  return w.removeResaleListing ticketId

structure ResaleTerms where
  platformFee : ℤ
  royalty : ℤ
  sellerProceeds : ℤ
  deriving DecidableEq

def resaleTerms (price : ℤ) (feeBps royaltyBps : ℕ) : Attempt ResaleTerms := do
  let platformFee ← basisPointsOf price feeBps
  let royalty ← basisPointsOf price royaltyBps
  let afterFee ← i128 (price - platformFee)
  let sellerProceeds ← i128 (afterFee - royalty)
  return { platformFee, royalty, sellerProceeds }

/-- The seller gets what fee and royalty leave, if they leave anything. -/
def paySeller (env : Env) (w : World) (ticketId : ℕ) (e : Symbol) (token seller : Address)
    (proceeds : ℤ) : Attempt World :=
  if 0 < proceeds then
    w.transfer
      { token, src := env.currentContract, dst := seller, amount := proceeds, eventId := e,
        purpose := .resaleProceeds ticketId }
  else return w

def creditPlatform (w : World) (e : Symbol) (fee : ℤ) : Attempt World :=
  if 0 < fee then w.addPlatformRevenue e fee else return w

def creditRoyalty (w : World) (e : Symbol) (token : Address) (royalty : ℤ) : Attempt World :=
  if 0 < royalty then do
    let w ← w.addEventRevenue e royalty
    w.addEventTokenRevenue e token royalty
  else return w

/-- The buyer pays the price to the contract, which pays the seller and keeps the rest. -/
def settleResale (env : Env) (buyer : Address) (ticketId : ℕ) (ticket : Ticket)
    (config : EventConfig) (listing : ResaleListing) (w : World) : Attempt World :=
  if 0 < listing.price then do
    let e := ticket.eventId
    let terms ← resaleTerms listing.price w.getPlatformFeeBps config.resaleRoyaltyBps
    let w ← w.transfer
      { token := config.payoutToken, src := buyer, dst := env.currentContract,
        amount := listing.price, eventId := e, purpose := .resalePrice ticketId }
    let w ← paySeller env w ticketId e config.payoutToken listing.seller terms.sellerProceeds
    let w ← creditPlatform w e terms.platformFee
    creditRoyalty w e config.payoutToken terms.royalty
  else return w

def buyResaleTicket (env : Env) (buyer : Address) (ticketId : ℕ) (w : World) : Attempt World := do
  requireNotPaused w
  requireAuth env buyer
  let listing ← okOr (w.getResaleListing ticketId) .ticketNotFound
  let ticket ← w.getTicket ticketId
  -- the source also drops a stale listing here, but the error rolls that back
  require (ticket.owner = some listing.seller) .unauthorized
  let config ← okOr (w.getEventConfig ticket.eventId) .invalidOrganizer
  let w ← settleResale env buyer ticketId ticket config listing w
  let ticketContract ← w.getTicketContract
  ensure (env.adminTransferTicket ticketContract env.currentContract listing.seller buyer
    ticketId = true) .trap
  let w := w.set (.ticket ticketId) { ticket with owner := some buyer }
  let w := w.removeOwnerTicketMap listing.seller ticketId
  let w ← w.addOwnerTicketMap buyer ticketId
  return w.removeResaleListing ticketId

end Zicket.Payments
