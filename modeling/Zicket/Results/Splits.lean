import Zicket.Escrow.Shares
import Zicket.Refinement.Calls

/-! Split payouts over whole runs: after the settlement each recipient gets its share at
most once, however withdrawals, flags and resolutions are interleaved. -/

namespace Zicket.Payments

open Host Foundation Book

variable {d : Deployment} {e : Symbol} {s : SplitSettlement}

/-- Whom the share of a recipient was paid to. -/
def World.payee (w : World) (e : Symbol) (who : Address) : Option Address :=
  (w.transfers.find? (Transfer.paysShare e who)).map (·.dst)

def Step.splits (e : Symbol) : Step → Prop
  | .call _ (.withdrawSplit _ e') | .call _ (.flagCohost _ e' _)
  | .call _ (.resolveFlaggedShare e' _ _) => e' = e
  | _ => False

theorem deployed_shared (balances : Balances Address Address) :
    Shared d.currentContract (deployed balances).book where
  valid e splits stored := by cases stored
  settled e s stored := by cases stored
  nonneg _ _ := le_rfl
  flagged e who flagged := by cases flagged
  entry tr mem := by cases mem
  once _ _ := rfl
  listed e who paid := absurd paid (lt_irrefl 0)
  total _ := rfl

theorem next_shared (w : World) (step : Step) (kept : w.book.Kept)
    (shared : Shared d.currentContract w.book) : Shared d.currentContract (w.next d step).book :=
  next_posting_invariant (fun _ _ _ inv sound => inv.post sound) step kept shared

theorem reachable_shared (d : Deployment) (balances : Balances Address Address)
    (steps : List Step) :
    Shared d.currentContract (run (World.next d) (deployed balances) steps).book :=
  (run_invariant (I := fun w : World => w.book.Kept ∧ Shared d.currentContract w.book)
    (P := fun _ _ => True)
    (fun w step inv _ => ⟨next_kept w step inv.1, next_shared w step inv.1 inv.2⟩)
    (along_of_forall (fun _ _ => trivial) _ steps) ⟨deployed_kept balances, deployed_shared balances⟩).2

section Settled

/-- What is settled stays settled, over the same list. -/
theorem post_settlement {self : Address} {b : Book} {posting : Posting} (shared : Shared self b)
    (sound : Sound self b posting) (settled : b.settlement e = some s) :
    (b.post self posting).settlement e = some s ∧
      (b.post self posting).splits e = b.splits e := by
  cases posting with
  | settle e' t pool total net left =>
    have other : e ≠ e' := by
      rintro rfl
      rw [sound.unsettled] at settled
      cases settled
    exact ⟨(Function.update_of_ne other ..).trans settled, rfl⟩
  | setSplits e' splits =>
    have other : e ≠ e' := by
      rintro rfl
      have := (shared.settled e s settled).1
      simp [sound.1] at this
    exact ⟨settled, Function.update_of_ne other ..⟩
  | resale ticket t price fee royalty buyer seller =>
    obtain ⟨-, terms, accounts, -⟩ :=
      recordResale_frame self b ticket t price (price - fee - royalty) buyer seller
    have settlement := congrArg (Accounts.settlement · e) accounts
    exact ⟨settlement.trans settled, congrArg (Terms.splits · e) terms⟩
  | _ => exact ⟨settled, rfl⟩

theorem run_settlement {w : World} (kept : w.book.Kept) (shared : Shared d.currentContract w.book)
    (settled : w.book.settlement e = some s) (steps : List Step) :
    (run (World.next d) w steps).book.settlement e = some s ∧
      (run (World.next d) w steps).book.splits e = w.book.splits e := by
  have invariant := run_invariant (P := fun _ _ => True)
    (I := fun w' : World => w'.book.Kept ∧ Shared d.currentContract w'.book ∧
      w'.book.settlement e = some s ∧ w'.book.splits e = w.book.splits e)
    (fun w' step inv _ => ⟨next_kept w' step inv.1, next_posting_invariant
      (I := fun b => Shared d.currentContract b ∧ b.settlement e = some s ∧
        b.splits e = w.book.splits e)
      (fun b posting _ inv sound =>
        have settled := post_settlement inv.1 sound inv.2.1
        ⟨inv.1.post sound, settled.1, settled.2.trans inv.2.2⟩) step inv.1 inv.2⟩)
    (along_of_forall (fun _ _ => trivial) w steps) ⟨kept, shared, settled, rfl⟩
  exact invariant.2.2

end Settled

section NewShares

theorem share_posted {self : Address} {b : Book} {ps : List Posting} {tr : Transfer}
    {who : Address} (mem : tr ∈ (run (post self) b ps).transfers) (fresh : tr ∉ b.transfers)
    (pays : tr.purpose = .splitShare who) :
    ∃ s amount time, .share tr.eventId who tr.dst s amount time ∈ ps := by
  induction ps generalizing b with
  | nil => exact absurd mem fresh
  | cons posting ps ih =>
    by_cases new : tr ∈ (b.post self posting).transfers
    · rw [post_transfers, List.mem_append] at new
      have new := new.resolve_right fresh
      cases posting with
      | share e' recipient dst s amount time =>
        rw [List.mem_singleton.mp new] at pays ⊢
        cases pays
        exact ⟨s, amount, time, List.mem_cons_self⟩
      | resale ticket t price fee royalty buyer seller =>
        obtain ⟨kind, -⟩ | ⟨kind, -⟩ := mem_resaleTransfers new <;> simp [kind] at pays
      | sale | refund | approve | payout | sweep =>
        rw [List.mem_singleton.mp new] at pays
        cases pays
      | _ => cases new
    · obtain ⟨s, amount, time, posted⟩ := ih mem new
      exact ⟨s, amount, time, List.mem_cons_of_mem _ posted⟩

theorem mem_settles_append {b : Book} {settling : List Posting} (settles : Settles b e settling)
    {posting last : Posting} (mem : posting ∈ settling ++ [last]) (kind : posting.entry = .share) :
    posting = last := by
  obtain old | new := List.mem_append.mp mem
  · obtain sweep | settle := settles.entries old
    · rw [kind] at sweep
      cases sweep
    · rw [kind] at settle
      cases settle
  · exact List.mem_singleton.mp new

/-- A share goes to its recipient by a withdrawal while it is not flagged, or to the
primary organizer when the flag is resolved that way. -/
theorem share_paid {w : World} {step : Step} (kept : w.book.Kept)
    (shared : Shared d.currentContract w.book) {tr : Transfer} {who : Address}
    (mem : tr ∈ (w.next d step).transfers) (fresh : tr ∉ w.transfers)
    (pays : tr.paysShare e who = true) :
    (∃ invocation, step = .call invocation (.withdrawSplit who e) ∧
        w.isSplitFlagged e who = false ∧ tr.dst = who) ∨
      ∃ invocation, step = .call invocation (.resolveFlaggedShare e who .reassignToPrimary) ∧
        w.isSplitFlagged e who = true ∧ tr.dst ≠ who := by
  simp only [Transfer.paysShare, Bool.and_eq_true, decide_eq_true_eq] at pays
  obtain ⟨rfl, pays⟩ := pays
  obtain ⟨ps, wrote, -, effect⟩ := next_wrote kept step
  have mem : tr ∈ (run (post d.currentContract) w.book ps).transfers := by
    rw [effect]
    exact mem
  obtain ⟨s, amount, time, posted⟩ := share_posted mem fresh pays
  cases step with
  | call invocation c =>
    obtain ⟨w', -, posts⟩ | ⟨-, rfl⟩ := wrote
    · have kind : Entry.share ∈ c.entries := posts.entries posted
      cases c with
      | withdrawSplit recipient e =>
        obtain ⟨unflagged, settling, s', share, settles, rfl⟩ := posts
        have same := mem_settles_append settles posted rfl
        injection same with event recipient' dst
        subst event recipient'
        exact .inl ⟨invocation, rfl, unflagged, dst⟩
      | resolveFlaggedShare e recipient resolution =>
        cases resolution with
        | releaseToRecipient =>
          obtain rfl := posts
          cases List.mem_singleton.mp posted
        | reassignToPrimary =>
          obtain ⟨flagged, settling, s', dst, share, primary, settles, rfl⟩ := posts
          have same := mem_settles_append settles posted rfl
          injection same with event recipient' payee
          subst event recipient' payee
          refine .inr ⟨invocation, rfl, flagged, fun same => ?_⟩
          have distinct := (shared.flagged _ _ flagged).2.2
          rw [primary, same] at distinct
          exact distinct rfl
      | _ => simp [Call.entries] at kind
    · cases posted
  | mint | pay =>
    obtain rfl := wrote
    cases List.mem_singleton.mp posted

end NewShares

section Order

/-- What split operations do to the wallet of a settled event: they log shares of the
event, and move the balances by them. -/
structure PaidShares (e : Symbol) (start b : Book) (paid : List Transfer) : Prop where
  log : b.transfers = paid ++ start.transfers
  shares : ∀ tr ∈ paid, ∃ who, tr.paysShare e who = true
  balance : ∀ t account, b.balances t account = start.balances t account +
    tally (fun tr => if tr.token = t then tr.gain account else 0) paid

theorem post_paidShares {self : Address} {start b : Book} {posting : Posting}
    {paid : List Transfer} (h : PaidShares e start b paid)
    (share : posting.entry = .setFlag ∨
      ∃ who dst s amount time, posting = .share e who dst s amount time) :
    (b.post self posting).settlement = b.settlement ∧
      ∃ paid', PaidShares e start (b.post self posting) paid' := by
  have inside : ∀ balances, posting ≠ .outside balances := by
    rintro balances rfl
    obtain kind | ⟨who, dst, s, amount, time, kind⟩ := share <;> cases kind
  have settlement : (b.post self posting).settlement = b.settlement := by
    obtain kind | ⟨who, dst, s, amount, time, rfl⟩ := share
    · cases posting <;> cases kind
      rfl
    · rfl
  refine ⟨settlement, b.added self posting ++ paid, ?_, ?_, fun t account => ?_⟩
  · rw [post_transfers, h.log, List.append_assoc]
  · intro tr mem
    obtain new | old := List.mem_append.mp mem
    · obtain kind | ⟨who, dst, s, amount, time, rfl⟩ := share
      · cases posting <;> cases kind
        cases new
      · rw [List.mem_singleton.mp new]
        exact ⟨who, by simp [Transfer.paysShare]⟩
    · exact h.shares tr old
  · rw [post_balance inside, h.balance, tally_append]
    ring

theorem run_paidShares {w : World} (kept : w.book.Kept)
    (settled : w.book.settlement e = some s) {steps : List Step}
    (splits : ∀ step ∈ steps, step.splits e) :
    ∃ paid, PaidShares e w.book (run (World.next d) w steps).book paid := by
  have base : PaidShares e w.book w.book [] :=
    ⟨rfl, by simp, fun t account => (add_zero _).symm⟩
  refine (book_invariant (P := fun _ step => step.splits e)
    (Q := fun _ posting => posting.entry = .setFlag ∨
      ∃ who dst s amount time, posting = .share e who dst s amount time)
    (I := fun b => b.settlement e = some s ∧ ∃ paid, PaidShares e w.book b paid)
    ?_ ?_ (along_of_mem (fun step mem _ => splits step mem) w) kept ⟨settled, [], base⟩).2
  · rintro b posting - ⟨settled, paid, inv⟩ - share
    obtain ⟨settlement, inv⟩ := post_paidShares inv share
    exact ⟨(congrFun settlement e).trans settled, inv⟩
  · rintro w' step ps - ⟨settled, -⟩ splits wrote -
    refine along_of_mem (fun posting mem _ => ?_) _
    -- a settled event is not settled again
    have idle : ∀ settling, Settles w'.book e settling → settling = [] := by
      rintro settling (⟨-, none⟩ | ⟨unsettled, -⟩)
      · exact none
      · rw [settled] at unsettled
        cases unsettled
    cases step with
    | call invocation c =>
      obtain ⟨w'', -, posts⟩ | ⟨-, rfl⟩ := wrote
      · cases c with
        | withdrawSplit recipient e' =>
          obtain rfl : e' = e := splits
          obtain ⟨-, settling, s', share, settles, rfl⟩ := posts
          rw [idle settling settles, List.nil_append, List.mem_singleton] at mem
          exact .inr ⟨_, _, _, _, _, mem⟩
        | flagCohost organizer e' recipient =>
          obtain rfl := posts
          rw [List.mem_singleton.mp mem]
          exact .inl rfl
        | resolveFlaggedShare e' recipient resolution =>
          obtain rfl : e' = e := splits
          cases resolution with
          | releaseToRecipient =>
            obtain rfl := posts
            rw [List.mem_singleton.mp mem]
            exact .inl rfl
          | reassignToPrimary =>
            obtain ⟨-, settling, s', dst, share, -, settles, rfl⟩ := posts
            rw [idle settling settles, List.nil_append, List.mem_singleton] at mem
            exact .inr ⟨_, _, _, _, _, mem⟩
        | _ => cases splits
      · cases mem
    | mint | pay => cases splits

theorem Shared.unique {contract : Address} {b : Book} (shared : Shared contract b)
    {who : Address} {tr tr' : Transfer} (mem : tr ∈ b.transfers) (mem' : tr' ∈ b.transfers)
    (pays : tr.paysShare e who = true) (pays' : tr'.paysShare e who = true) : tr = tr' := by
  have one : ∃ entry, ∀ tr ∈ b.transfers.filter (Transfer.paysShare e who), tr = entry := by
    have once := shared.once e who
    split at once
    · obtain ⟨entry, only⟩ := List.length_eq_one_iff.mp once
      exact ⟨entry, fun tr mem => List.mem_singleton.mp (only ▸ mem)⟩
    · have none := List.length_eq_zero_iff.mp once
      exact ⟨tr, fun tr mem => absurd (none ▸ mem) List.not_mem_nil⟩
  obtain ⟨entry, only⟩ := one
  rw [only tr (List.mem_filter.mpr ⟨mem, pays⟩), only tr' (List.mem_filter.mpr ⟨mem', pays'⟩)]

theorem PaidShares.nodup {contract : Address} {start b : Book} {paid : List Transfer}
    (h : PaidShares e start b paid) (shared : Shared contract b) : paid.Nodup := by
  refine List.nodup_iff_count_le_one.mpr fun tr => ?_
  by_cases mem : tr ∈ paid
  · obtain ⟨who, pays⟩ := h.shares tr mem
    calc paid.count tr
        ≤ (paid.filter (Transfer.paysShare e who)).length := by
          rw [List.count, ← List.countP_eq_length_filter]
          exact List.countP_mono_left fun tr' _ same => by rw [eq_of_beq same, pays]
      _ ≤ (b.transfers.filter (Transfer.paysShare e who)).length := by
          rw [h.log, List.filter_append, List.length_append]
          exact Nat.le_add_right ..
      _ ≤ 1 := by
          rw [shared.once]
          split <;> omega
  · rw [List.count_eq_zero.mpr mem]
    exact Nat.zero_le 1

/-- Two ways to settle the same recipients with the same accounts log the same shares. -/
theorem PaidShares.mem_of_payee {contract : Address} {start : Book} {w₁ w₂ : World}
    {paid₁ paid₂ : List Transfer} (h₁ : PaidShares e start w₁.book paid₁)
    (h₂ : PaidShares e start w₂.book paid₂) (shared₁ : Shared contract w₁.book)
    (shared₂ : Shared contract w₂.book) (settled₁ : w₁.book.settlement e = some s)
    (settled₂ : w₂.book.settlement e = some s) (splits : w₁.book.splits e = w₂.book.splits e)
    (payees : ∀ who, w₁.payee e who = w₂.payee e who) {tr : Transfer} (mem : tr ∈ paid₁) :
    tr ∈ paid₂ := by
  obtain ⟨who, pays⟩ := h₁.shares tr mem
  have logged : tr ∈ w₁.book.transfers := by
    rw [h₁.log]
    exact List.mem_append_left _ mem
  obtain ⟨tr₁, found₁⟩ : ∃ tr₁, w₁.transfers.find? (Transfer.paysShare e who) = some tr₁ := by
    rw [← Option.isSome_iff_exists, List.find?_isSome]
    exact ⟨tr, logged, pays⟩
  obtain rfl : tr = tr₁ := shared₁.unique logged (List.mem_of_find?_eq_some found₁) pays
    (List.find?_some found₁)
  have payee := payees who
  rw [World.payee, World.payee, found₁] at payee
  obtain ⟨tr₂, found₂, dst⟩ := Option.map_eq_some_iff.mp payee.symm
  have logged₂ : tr₂ ∈ w₂.book.transfers := List.mem_of_find?_eq_some found₂
  have pays₂ : tr₂.paysShare e who = true := List.find?_some found₂
  have key : ∀ {tr : Transfer}, tr.paysShare e who = true →
      tr.eventId = e ∧ tr.purpose = .splitShare who := by
    intro tr pays
    simpa [Transfer.paysShare] using pays
  obtain ⟨event, purpose⟩ := key pays
  obtain ⟨event₂, purpose₂⟩ := key pays₂
  obtain ⟨⟨s₁, stored₁, token₁, amount₁⟩, src₁, -, -⟩ := shared₁.entry tr logged who purpose
  obtain ⟨⟨s₂, stored₂, token₂, amount₂⟩, src₂, -, -⟩ := shared₂.entry tr₂ logged₂ who purpose₂
  rw [event, settled₁] at stored₁
  rw [event₂, settled₂] at stored₂
  cases stored₁
  cases stored₂
  have same : tr = tr₂ := by
    have amount : tr.amount = tr₂.amount := by rw [amount₁, amount₂, event, event₂, splits]
    obtain ⟨_, _, _, _, _, _⟩ := tr
    obtain ⟨_, _, _, _, _, _⟩ := tr₂
    simp_all
  subst same
  rw [h₂.log, List.mem_append] at logged₂
  refine logged₂.resolve_right fun old => ?_
  -- a share logged before would have kept the first run from paying it again
  have twice : 2 ≤ (w₁.book.transfers.filter (Transfer.paysShare e who)).length := by
    rw [h₁.log, List.filter_append, List.length_append]
    have new := List.length_pos_of_mem (List.mem_filter.mpr ⟨mem, pays⟩)
    have old := List.length_pos_of_mem (List.mem_filter.mpr ⟨old, pays⟩)
    omega
  rw [shared₁.once] at twice
  split at twice <;> omega

theorem split_determined {w : World} (kept : w.book.Kept) (shared : Shared d.currentContract w.book)
    (settled : w.book.settlement e = some s) {first second : List Step}
    (splits₁ : ∀ step ∈ first, step.splits e) (splits₂ : ∀ step ∈ second, step.splits e)
    (payees : ∀ who, (run (World.next d) w first).payee e who =
      (run (World.next d) w second).payee e who) :
    (run (World.next d) w first).balances = (run (World.next d) w second).balances := by
  have stays : ∀ steps, Shared d.currentContract (run (World.next d) w steps).book := fun steps =>
    (run_invariant (I := fun w : World => w.book.Kept ∧ Shared d.currentContract w.book)
      (P := fun _ _ => True)
      (fun w step inv _ => ⟨next_kept w step inv.1, next_shared w step inv.1 inv.2⟩)
      (along_of_forall (fun _ _ => trivial) _ steps) ⟨kept, shared⟩).2
  obtain ⟨paid₁, h₁⟩ := run_paidShares (d := d) kept settled splits₁
  obtain ⟨paid₂, h₂⟩ := run_paidShares (d := d) kept settled splits₂
  obtain ⟨settled₁, list₁⟩ := run_settlement kept shared settled first
  obtain ⟨settled₂, list₂⟩ := run_settlement kept shared settled second
  have list := list₁.trans list₂.symm
  have perm : paid₁.Perm paid₂ := by
    refine (List.perm_ext_iff_of_nodup (h₁.nodup (stays first)) (h₂.nodup (stays second))).mpr
      fun tr => ⟨?_, ?_⟩
    · exact h₁.mem_of_payee h₂ (stays first) (stays second) settled₁ settled₂ list payees
    · exact h₂.mem_of_payee h₁ (stays second) (stays first) settled₂ settled₁ list.symm
        fun who => (payees who).symm
  funext t account
  refine (h₁.balance t account).trans (Eq.trans ?_ (h₂.balance t account).symm)
  rw [tally, tally, (perm.map _).sum_eq]

end Order

/-- What holds of an event that settled at a net amount, in a state and in what follows. -/
structure ExactSplits (d : Deployment) (e : Symbol) (s : SplitSettlement) (w : World) : Prop where
  nonneg : ∀ who, 0 ≤ splitShare (w.getSplits e) who s.netDistributable
  exhaust : ((w.getSplits e).map fun split =>
    splitShare (w.getSplits e) split.recipient s.netDistributable).sum = s.netDistributable
  computed : ∀ who x, recipientShare (w.getSplits e) who s.netDistributable = .ok x →
    x = splitShare (w.getSplits e) who s.netDistributable
  computes : s.netDistributable * 10000 < 2 ^ 127 → ∀ who,
    recipientShare (w.getSplits e) who s.netDistributable =
      .ok (splitShare (w.getSplits e) who s.netDistributable)
  once : ∀ who, (w.transfers.filter (Transfer.paysShare e who)).length =
    if 0 < w.getSplitWithdrawn e who then 1 else 0
  amount : ∀ who, ∀ tr ∈ w.transfers, tr.paysShare e who = true → tr.src = d.currentContract ∧
    tr.token = s.token ∧ tr.amount = splitShare (w.getSplits e) who s.netDistributable ∧
    (tr.dst = who ∨ (w.getSplits e).head?.map (·.recipient) = some tr.dst)
  paid : ∀ step who, ∀ tr ∈ (w.next d step).transfers, tr ∉ w.transfers →
    tr.paysShare e who = true →
    (∃ invocation, step = .call invocation (.withdrawSplit who e) ∧
        w.isSplitFlagged e who = false ∧ tr.dst = who) ∨
      ∃ invocation, step = .call invocation (.resolveFlaggedShare e who .reassignToPrimary) ∧
        w.isSplitFlagged e who = true ∧ tr.dst ≠ who
  total : tally (Transfer.shareOf e) w.transfers = s.netDistributable -
    ((w.getSplits e).map fun split => if 0 < w.getSplitWithdrawn e split.recipient then 0
      else splitShare (w.getSplits e) split.recipient s.netDistributable).sum
  stays : ∀ after, (run (World.next d) w after).getSplitSettlement e = some s ∧
    (run (World.next d) w after).getSplits e = w.getSplits e
  determined : ∀ first second, (∀ step ∈ first, step.splits e) → (∀ step ∈ second, step.splits e) →
    (∀ who, (run (World.next d) w first).payee e who = (run (World.next d) w second).payee e who) →
    (run (World.next d) w first).balances = (run (World.next d) w second).balances

theorem exactSplits_of_settled {w : World} (kept : w.book.Kept)
    (shared : Shared d.currentContract w.book) (settled : w.getSplitSettlement e = some s) :
    ExactSplits d e s w := by
  have settled : w.book.settlement e = some s := settled
  obtain ⟨split, positive⟩ := shared.settled e s settled
  obtain ⟨splits, stored⟩ := Option.isSome_iff_exists.mp split
  have list : w.getSplits e = splits := congrArg (Option.getD · []) stored
  have valid := shared.valid e splits stored
  exact
    { nonneg := by
        rw [list]
        exact splitShare_nonneg valid positive.le
      exhaust := by
        rw [list]
        exact sum_splitShare valid
      computed := fun _ _ => recipientShare_eq_ok
      computes := by
        rw [list]
        exact recipientShare_ok valid positive.le
      once := shared.once e
      amount := by
        intro who tr mem pays
        simp only [Transfer.paysShare, Bool.and_eq_true, decide_eq_true_eq] at pays
        obtain ⟨⟨s', stored', token, amount⟩, src, dst, -⟩ := shared.entry tr mem who pays.2
        rw [pays.1] at stored' amount dst
        rw [settled] at stored'
        cases stored'
        refine ⟨src, token, amount, dst.imp id fun primary => ?_⟩
        rw [Book.primary, stored] at primary
        rw [list]
        exact primary
      paid := fun step who tr mem fresh pays => share_paid kept shared mem fresh pays
      total := shared.paid_total settled
      stays := by
        intro after
        obtain ⟨settlement, same⟩ := run_settlement kept shared settled after
        exact ⟨settlement, congrArg (Option.getD · []) same⟩
      determined := fun _ _ splits₁ splits₂ => split_determined kept shared settled splits₁ splits₂ }

end Zicket.Payments
