import Zicket.Refinement.Refunds

/-! What a bought resale writes: the price, the fee and the royalty of a listing with a
price, and the ticket's new owner. -/

namespace Zicket.Payments

open Host Foundation Book

variable {env : Env} {w w' : World}

theorem resaleTerms_eq_ok {price : ℤ} {feeBps royaltyBps : ℕ} {terms : ResaleTerms}
    (h : resaleTerms price feeBps royaltyBps = .ok terms) :
    terms = ⟨bpsOf price feeBps, bpsOf price royaltyBps,
      price - bpsOf price feeBps - bpsOf price royaltyBps⟩ := by
  simp only [resaleTerms, bind_eq_ok, pure_eq_ok, i128_eq_ok] at h
  obtain ⟨fee, hfee, royalty, hroyalty, _, ⟨-, rfl⟩, _, ⟨-, rfl⟩, rfl⟩ := h
  rw [basisPointsOf_eq_ok hfee, basisPointsOf_eq_ok hroyalty]

theorem creditPlatform_book {e : Symbol} {fee : ℤ} (nonneg : 0 ≤ fee)
    (h : creditPlatform w e fee = .ok w') :
    w'.book = { w.book with
      platform := Function.update w.book.platform e (w.book.platform e + fee) } := by
  unfold creditPlatform at h
  split at h
  · exact World.addPlatformRevenue_book h
  · cases h
    have zero : fee = 0 := by omega
    rw [zero, add_zero, Function.update_eq_self]

theorem creditRoyalty_book {e : Symbol} {t : Address} {royalty : ℤ} (nonneg : 0 ≤ royalty)
    (h : creditRoyalty w e t royalty = .ok w') : w'.book = w.book.addRevenue e t royalty := by
  unfold creditRoyalty at h
  split at h
  · simp only [bind_eq_ok] at h
    obtain ⟨w₁, h₁, h₂⟩ := h
    rw [World.addEventTokenRevenue_book h₂, World.addEventRevenue_book h₁]
  · cases h
    have zero : royalty = 0 := by omega
    rw [zero, addRevenue, add_zero, put_eq]

theorem paySeller_book {ticketId : ℕ} {e : Symbol} {token seller : Address} {proceeds : ℤ}
    (h : paySeller env w ticketId e token seller proceeds = .ok w') :
    w'.book = if 0 < proceeds then w.book.record
      { token, src := env.currentContract, dst := seller, amount := proceeds, eventId := e,
        purpose := .resaleProceeds ticketId } else w.book := by
  unfold paySeller at h
  split at h <;> rename_i sign
  · rw [if_pos sign, (World.transfer_book h).2]
  · cases h
    rw [if_neg sign]

theorem settleResale_pays {buyer : Address} {ticketId : ℕ} {ticket : Ticket} {config : EventConfig}
    {listing : ResaleListing} (number : ticket.ticketId = ticketId) (positive : 0 < listing.price)
    (h : settleResale env buyer ticketId ticket config listing w = .ok w') :
    w'.book = w.book.post env.currentContract
      (.resale ticket config.payoutToken listing.price (bpsOf listing.price w.getPlatformFeeBps)
        (bpsOf listing.price config.resaleRoyaltyBps) buyer listing.seller) := by
  subst number
  unfold settleResale at h
  rw [if_pos positive] at h
  simp only [bind_eq_ok] at h
  obtain ⟨terms, hterms, w₁, h₁, w₂, h₂, w₃, h₃, h₄⟩ := h
  rw [resaleTerms_eq_ok hterms] at h₂ h₃ h₄
  rw [creditRoyalty_book (bpsOf_nonneg positive.le _) h₄,
    creditPlatform_book (bpsOf_nonneg positive.le _) h₃, paySeller_book h₂,
    (World.transfer_book h₁).2]
  let proceeds := listing.price - bpsOf listing.price w.getPlatformFeeBps -
    bpsOf listing.price config.resaleRoyaltyBps
  let b := recordResale env.currentContract w.book ticket config.payoutToken listing.price
    proceeds buyer listing.seller
  have platform : b.platform = w.book.platform :=
    congrArg Accounts.platform (recordResale_frame ..).2.2.1
  change addRevenue { b with
    platform := Function.update b.platform ticket.eventId (b.platform ticket.eventId +
      bpsOf listing.price w.getPlatformFeeBps) } _ _ _ = _
  rw [platform]
  rfl

theorem settleResale_book {buyer : Address} {ticket : Ticket} {config : EventConfig}
    {listing : ResaleListing} (stored : w.book.ticket ticket.ticketId = some ticket)
    (owner : ticket.owner = some listing.seller)
    (configured : w.book.config ticket.eventId = some config)
    (h : settleResale env buyer ticket.ticketId ticket config listing w = .ok w') :
    w'.book = w.book ∨ ∃ t fee royalty seller,
      w.book.ResaleSound ticket t listing.price fee royalty seller ∧
      w'.book = w.book.post env.currentContract
        (.resale ticket t listing.price fee royalty buyer seller) := by
  by_cases positive : 0 < listing.price
  · exact .inr ⟨config.payoutToken, _, _, listing.seller,
      ⟨stored, owner, positive, ⟨config, configured, rfl, rfl⟩, rfl⟩,
      settleResale_pays rfl positive h⟩
  · rw [settleResale, if_neg positive] at h
    cases h
    exact .inl rfl

theorem buyResaleTicket_written {buyer : Address} {ticketId : ℕ} (kept : w.book.Kept)
    (h : buyResaleTicket env buyer ticketId w = .ok w') :
    Written env w (.buyResaleTicket buyer ticketId) w'.book := by
  simp only [buyResaleTicket, bind_eq_ok, pure_eq_ok, require_eq_ok, okOr_eq_ok,
    World.getTicket] at h
  obtain ⟨-, -, -, -, listing, listed, ticket, hticket, -, owner, config, configured, w₁, h₁, _, -, -,
    -, w₂, h₂, rfl⟩ := h
  have stored : w.book.ticket ticketId = some ticket := hticket
  obtain ⟨p, hp, built, -⟩ := kept.recorded.ticketed ticketId ticket stored
  have number : ticket.ticketId = ticketId := congrArg Ticket.ticketId built
  subst number
  have owned : ticket.owner.isSome := by rw [owner]; rfl
  have effect : (w₂.removeResaleListing ticket.ticketId).book =
      w₁.book.post env.currentContract (.handover ticket buyer) := by
    change w₂.book = _
    rw [World.addOwnerTicketMap_book h₂, World.removeOwnerTicketMap_book,
      World.book_set_ticket]
    rfl
  obtain same | ⟨t, fee, royalty, seller, sound, sold⟩ :=
    settleResale_book stored owner configured h₁
  · refine .one ⟨ticket, listing, stored, listed, .inl rfl⟩ ⟨stored, owned⟩ ?_
    rw [effect, same]
  · have stored₁ : w₁.book.ticket ticket.ticketId = some ticket := by
      rw [sold]
      have records := (recordResale_frame env.currentContract w.book ticket t listing.price
        (listing.price - fee - royalty) buyer seller).1
      change (recordResale env.currentContract w.book ticket t listing.price
        (listing.price - fee - royalty) buyer seller).ticket ticket.ticketId = _
      rw [records]
      exact stored
    refine ⟨[.resale ticket t listing.price fee royalty buyer seller, .handover ticket buyer],
      ⟨ticket, listing, stored, listed, .inr ⟨t, fee, royalty, seller, rfl⟩⟩,
      ⟨sound, ⟨by rw [← sold]; exact stored₁, owned⟩, trivial⟩, ?_⟩
    rw [effect, run_cons, run_cons, run_nil, sold]

end Zicket.Payments
