import Zicket.Refinement.Transfers

/-! What becomes of the price of a resale: the seller's proceeds are clamped at zero, the fee and
the royalty are credited whatever they sum to. -/

namespace Zicket.Payments

open Host Foundation Book

variable {d : Deployment} {w : World} {invocation : Invocation} {buyer : Address} {ticketId : ℕ}
  {listing : ResaleListing} {ticket : Ticket} {config : EventConfig}

def amountOf (purpose : Purpose) (dst : Address) (transfers : List Transfer) : ℤ :=
  ((transfers.filter fun tr => tr.purpose = purpose ∧ tr.dst = dst).map (·.amount)).sum

/-- The buyer pays the price; what the seller is paid and what is credited to the platform and to
the event's revenue is not negative and sums to the price. -/
def Conserves (d : Deployment) (w : World) (step : Step) (ticketId : ℕ) (listing : ResaleListing)
    (e : Symbol) (t : Address) : Prop :=
  let proceeds := amountOf (.resaleProceeds ticketId) listing.seller (w.sent d step)
  let fee := (w.next d step).getPlatformRevenue e - w.getPlatformRevenue e
  let royalty := (w.next d step).getEventTokenRevenue e t - w.getEventTokenRevenue e t
  amountOf (.resalePrice ticketId) d.currentContract (w.sent d step) = listing.price ∧
    0 ≤ proceeds ∧ 0 ≤ fee ∧ 0 ≤ royalty ∧ proceeds + fee + royalty = listing.price

instance (step : Step) (e : Symbol) (t : Address) :
    Decidable (Conserves d w step ticketId listing e t) :=
  inferInstanceAs (Decidable (_ ∧ _ ∧ _ ∧ _ ∧ _))

section Amounts

variable {self : Address} {t : Address} {price proceeds : ℤ} {seller : Address}

theorem amountOf_price : amountOf (.resalePrice ticket.ticketId) self
    (resaleTransfers self ticket t price proceeds buyer seller) = price := by
  unfold amountOf resaleTransfers
  split <;> simp

theorem amountOf_proceeds : amountOf (.resaleProceeds ticket.ticketId) seller
    (resaleTransfers self ticket t price proceeds buyer seller) = max 0 proceeds := by
  unfold amountOf resaleTransfers
  split
  · rename_i positive
    simp [positive.le]
  · rename_i nonpositive
    simp [not_lt.mp nonpositive]

end Amounts

theorem buyResaleTicket_pays (kept : w.book.Kept) (listed : w.getResaleListing ticketId = some listing)
    (stored : w.getTicket ticketId = .ok ticket)
    (configured : w.getEventConfig ticket.eventId = some config) (positive : 0 < listing.price)
    {w' : World} {env : Env} (h : buyResaleTicket env buyer ticketId w = .ok w') :
    let fee := bpsOf listing.price w.getPlatformFeeBps
    let royalty := bpsOf listing.price config.resaleRoyaltyBps
    ticket.ticketId = ticketId ∧
      w'.transfers = resaleTransfers env.currentContract ticket config.payoutToken listing.price
        (listing.price - fee - royalty) buyer listing.seller ++ w.transfers ∧
      w'.getPlatformRevenue ticket.eventId = w.getPlatformRevenue ticket.eventId + fee ∧
      w'.getEventTokenRevenue ticket.eventId config.payoutToken =
        w.getEventTokenRevenue ticket.eventId config.payoutToken + royalty := by
  intro fee royalty
  obtain ⟨_, _, built, -⟩ := kept.recorded.ticketed ticketId ticket (okOr_eq_ok.mp stored)
  have number : ticket.ticketId = ticketId := congrArg Ticket.ticketId built
  simp only [buyResaleTicket, bind_eq_ok, pure_eq_ok, require_eq_ok, okOr_eq_ok] at h
  obtain ⟨-, -, -, -, _, listed', _, stored', -, -, _, configured', w₁, settled, _, -, -, -, w₂,
    moved, rfl⟩ := h
  rw [listed] at listed'
  cases listed'
  rw [stored] at stored'
  cases stored'
  rw [configured] at configured'
  cases configured'
  have book : (w₂.removeResaleListing ticketId).book = (w₁.book.post env.currentContract
      (.handover ticket buyer)) := by
    change w₂.book = _
    rw [World.addOwnerTicketMap_book moved, World.removeOwnerTicketMap_book, World.book_set_ticket]
    subst number
    rfl
  have resold := settleResale_pays number positive settled
  rw [resold] at book
  refine ⟨number, ?_, ?_, ?_⟩
  · have log := congrArg (·.transfers) book
    exact log.trans (recordResale_transfers ..)
  · have platform := congrArg (fun b : Book => b.platform ticket.eventId) book
    exact platform.trans (Function.update_self ..)
  · have revenue := congrArg (fun b : Book => b.revenue ticket.eventId config.payoutToken) book
    have before : (recordResale env.currentContract w.book ticket config.payoutToken listing.price
        (listing.price - fee - royalty) buyer listing.seller).revenue = w.book.revenue :=
      congrArg Accounts.revenue (recordResale_frame ..).2.2.1
    refine revenue.trans ((put_self ..).trans ?_)
    rw [before]
    rfl

/-- In every reachable state, a resale with a price shares out exactly the price if and only if
the fee and the royalty together are not more than it. -/
theorem resale_conserves_iff (d : Deployment) (balances : Balances Address Address)
    (steps : List Step) (invocation : Invocation) (buyer : Address) (ticketId : ℕ)
    (listing : ResaleListing) (ticket : Ticket) (config : EventConfig) :
    let w := run (World.next d) (deployed balances) steps
    (Call.buyResaleTicket buyer ticketId).succeeds ⟨d, invocation⟩ w = true →
    w.getResaleListing ticketId = some listing → w.getTicket ticketId = .ok ticket →
    w.getEventConfig ticket.eventId = some config → 0 < listing.price →
    (Conserves d w (.call invocation (.buyResaleTicket buyer ticketId)) ticketId listing
        ticket.eventId config.payoutToken ↔
      bpsOf listing.price w.getPlatformFeeBps + bpsOf listing.price config.resaleRoyaltyBps ≤
        listing.price) := by
  intro w success listed stored configured positive
  have kept : w.book.Kept := reachable_kept d balances steps
  obtain ⟨w', result⟩ := succeeds_iff.mp success
  obtain ⟨number, log, platform, revenue⟩ :=
    buyResaleTicket_pays kept listed stored configured positive result
  subst number
  have next : w.next d (.call invocation (.buyResaleTicket buyer ticket.ticketId)) = w' := by
    rw [World.next, result]
    rfl
  have sent : w.sent d (.call invocation (.buyResaleTicket buyer ticket.ticketId)) = _ :=
    sent_eq ((congrArg (·.transfers) next).trans log)
  have fee := bpsOf_nonneg positive.le w.getPlatformFeeBps
  have royalty := bpsOf_nonneg positive.le config.resaleRoyaltyBps
  unfold Conserves
  rw [sent, next, platform, revenue, amountOf_price, amountOf_proceeds]
  dsimp only
  omega

namespace Sample

def greedy : List Step :=
  [.mint token bob 1000, .mint token amy 1000,
    call 1 (.initialise admin token 9000 admin eventContract),
    call 1 (.syncEventConfig eventContract concert { terms with resaleRoyaltyBps := 2000 }),
    call 1 (.setTicketContract admin ⟨7⟩), sale 2 1 bob concert 100,
    call 3 (.listTicketForResale bob 1 100)]

def modest : List Step := greedy ++ [call 4 (.setPlatformFee 500 admin)]

end Sample

theorem resale_conserves_iff_modest :
    Conserves Sample.deployment
      (run (World.next Sample.deployment) (deployed Sample.noBalances) Sample.modest)
      (Sample.call 5 (.buyResaleTicket Sample.amy 1)) 1 ⟨100, Sample.bob⟩ Sample.concert
      Sample.token :=
  (resale_conserves_iff Sample.deployment Sample.noBalances Sample.modest (Sample.invocation 5)
    Sample.amy 1 ⟨100, Sample.bob⟩ _ _ (by decide) rfl rfl rfl (by decide)).mpr (by decide)

/-- Bob is paid nothing, and 110 is credited out of the 100 that amy pays. -/
theorem resale_overcredits :
    let w := run (World.next Sample.deployment) (deployed Sample.noBalances) Sample.greedy
    (Call.buyResaleTicket Sample.amy 1).succeeds ⟨Sample.deployment, Sample.invocation 5⟩ w =
        true ∧
      ¬ Conserves Sample.deployment w (Sample.call 5 (.buyResaleTicket Sample.amy 1)) 1
        ⟨100, Sample.bob⟩ Sample.concert Sample.token := by
  decide

end Zicket.Payments
