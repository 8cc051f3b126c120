/-
# Attempts under contention

While a call on a proposal is under way, others may ask the store for anything
within the rules, any number of times before each of its attempts to write. An
attempt fails only if the status was moved away from the one that the call saw
last, and the call tries again only if the status that the attempt found still
admits it. Where the statuses that admit a call are ranked so that moves among
them go down, the rank bounds the attempts: a deletion and a review decision are
admitted by one status, an edit and a submission by two. A withdrawal is admitted
by two statuses that lead to each other, so only the moves bound it.

Key definitions: `Gap`, `Contested`, `Retries`, `GaveUp`,
`StorageBackend.BoundedAttempts`.
Key theorems: `Gap.moves_pos`, `Retries.run_cases`, `Retries.run_ranked`,
`Retries.run_moved`, `StorageBackend.attempts_bounded`.
-/
import CourseBoard.Proofs.Service.ProposalHistory
import CourseBoard.Proofs.Store.Statuses
import CourseBoard.Proofs.Store.Untimed

namespace CourseBoard

/-! ### A store that others use meanwhile -/

/-- Requests that others make, each at a reading of the clock. -/
abbrev Gap := List (Instant × StoreRequest)

namespace Gap

variable {b : StorageBackend}

/-- The store after these requests, one after the other. -/
def after : Gap → b.State → b.State
  | [], s => s
  | (now, r) :: gap, s => after gap (Store.answer now r s).2

/-- The status of the proposal is another one than before. -/
def moved (id : ProposalId) (s s' : b.State) : Bool :=
  match b.statusName? id s, b.statusName? id s' with
  | some x, some y => x != y
  | _, _ => false

/-- How many of these requests moved the status of the proposal. -/
def moves (id : ProposalId) : Gap → b.State → Nat
  | [], _ => 0
  | (now, r) :: gap, s =>
    let s' := (Store.answer now r s).2
    (if moved id s s' then 1 else 0) + moves id gap s'

def Lawful (id : ProposalId) (gap : Gap) : Prop :=
  ∀ request ∈ gap, request.2.Lawful id

variable {id : ProposalId} {gap : Gap}

theorem Lawful.tail {request : Instant × StoreRequest} (h : Lawful id (request :: gap)) :
    Lawful id gap :=
  fun r hr => h r (List.mem_cons_of_mem _ hr)

theorem after_shift (h : Lawful id gap) (s : b.State) :
    Shift (b.statusName? id s) (b.statusName? id (after gap s)) := by
  induction gap generalizing s with
  | nil => exact .same _
  | cons request gap ih =>
    obtain ⟨now, r⟩ := request
    have hfirst := StorageBackend.answer_shift (h _ List.mem_cons_self) now s
    have hrest := ih h.tail (Store.answer now r s).2
    exact hfirst.trans hrest

/-- A status that is another one afterwards was moved at least once. -/
theorem moves_pos (h : Lawful id gap) {s : b.State} {x y : String}
    (hx : b.statusName? id s = some x) (hy : b.statusName? id (after gap s) = some y)
    (hne : x ≠ y) : 0 < moves id gap s := by
  induction gap generalizing s x with
  | nil =>
    have hsame : some x = some y := hx.symm.trans hy
    exact absurd (Option.some.inj hsame) hne
  | cons request gap ih =>
    obtain ⟨now, r⟩ := request
    have hrest := after_shift h.tail (Store.answer now r s).2
    have hy' : b.statusName? id (after gap (Store.answer now r s).2) = some y := hy
    rw [hy'] at hrest
    cases hz : b.statusName? id (Store.answer now r s).2 with
    | none =>
      rw [hz] at hrest
      cases hrest.eq_none
    | some z =>
      show 0 < (if moved id s (Store.answer now r s).2 then 1 else 0) +
        moves id gap (Store.answer now r s).2
      by_cases hxz : x = z
      · subst hxz
        have hlater := ih h.tail hz hy' hne
        omega
      · have hmoved : moved id s (Store.answer now r s).2 = true := by
          unfold moved
          rw [hx, hz]
          exact bne_iff_ne.mpr hxz
        rw [if_pos hmoved]
        omega

end Gap

/-- A store that others use while a call is under way: what they ask for before
each of its conditional writes that are still to come, and what the call met with
so far. -/
structure Contested (b : StorageBackend) where
  store : b.State
  gaps : List Gap
  /-- The conditional writes that the call made. -/
  attempts : Nat := 0
  /-- The times that others moved the status of the record that it writes. -/
  moves : Nat := 0

namespace Contested

variable {b : StorageBackend}

def answer (now : Instant) (r : StoreRequest) (c : Contested b) : r.Reply × Contested b :=
  match r.written? with
  | none => ((Store.answer now r c.store).1, { c with store := (Store.answer now r c.store).2 })
  | some id =>
    let gap := c.gaps.headD []
    let result := Store.answer now r (Gap.after gap c.store)
    (result.1,
      { store := result.2, gaps := c.gaps.tail, attempts := c.attempts + 1
        moves := c.moves + Gap.moves id gap c.store })

instance : Store (Contested b) := ⟨answer⟩

end Contested

/-! ### Calls that try again -/

section Retries

variable {α : Type}

/-- The call ends because the proposal kept changing. -/
def GaveUp (outcome : Except Refusal α) : Prop :=
  ∃ id attempts, outcome = .error (.storage (.contention id attempts))

/-- To give up is a fault of the store. -/
theorem Faultless.not_gaveUp {outcome : Except Refusal α} (h : Faultless outcome) :
    ¬ GaveUp outcome := by
  rintro ⟨id, attempts, hgave⟩
  exact h _ hgave

/-- What is left of a call that last saw a proposal as `current`, with so many
attempts to write it: it makes one if the status admits it, and goes on with the
record that the attempt found in another status. -/
inductive Retries (id : ProposalId) (admits : ProposalStatus → Bool) :
    Nat → Proposal → Steps StoreRequest StoreRequest.Reply (Except Refusal α) → Prop
  | gaveUp (current : Proposal) (outcome : Except Refusal α) :
    Retries id admits 0 current (.done outcome)
  | refused (attempts : Nat) (current : Proposal) (outcome : Except Refusal α) (h : ¬ GaveUp outcome) :
    Retries id admits attempts current (.done outcome)
  | ask (attempts : Nat) (current : Proposal) (hadmits : admits current.status = true)
    (r : StoreRequest) (hr : r.expects? = some (id, current.status))
    {next : r.Reply → Steps StoreRequest StoreRequest.Reply (Except Refusal α)}
    (hover : ∀ reply, r.stale? reply = none → (∀ k n, reply ≠ .error (.contention k n)) →
      ∃ outcome, next reply = .done outcome ∧ ¬ GaveUp outcome)
    (hstale : ∀ reply fresh, r.stale? reply = some fresh →
      Retries id admits attempts fresh (next reply)) :
    Retries id admits (attempts + 1) current (.ask r next)

end Retries

namespace Contested

variable {b : StorageBackend} {id : ProposalId} {c : Contested b} {r : StoreRequest} {now : Instant}
  {expected : ProposalStatus}

/-- Whatever others will ask for is within the rules. -/
def Lawful (id : ProposalId) (c : Contested b) : Prop :=
  ∀ gap ∈ c.gaps, Gap.Lawful id gap

theorem answer_eq (hr : r.written? = some id) :
    Store.answer now r c =
      ((Store.answer now r (Gap.after (c.gaps.headD []) c.store)).1,
        { store := (Store.answer now r (Gap.after (c.gaps.headD []) c.store)).2
          gaps := c.gaps.tail, attempts := c.attempts + 1
          moves := c.moves + Gap.moves id (c.gaps.headD []) c.store }) := by
  show Contested.answer now r c = _
  unfold Contested.answer
  rw [hr]

theorem Lawful.head (h : c.Lawful id) : Gap.Lawful id (c.gaps.headD []) := by
  unfold Lawful at h
  cases hgaps : c.gaps with
  | nil => exact fun _ hr => absurd hr List.not_mem_nil
  | cons gap gaps =>
    rw [hgaps] at h
    exact h gap List.mem_cons_self

theorem Lawful.answer (h : c.Lawful id) (hr : r.written? = some id) :
    (Store.answer now r c).2.Lawful id := by
  rw [answer_eq hr]
  exact fun gap hgap => h gap (List.mem_of_mem_tail hgap)

/-- An attempt that found another status found one that the expected one reaches,
and others moved it there. -/
theorem answer_stale (h : c.Lawful id) (hs : b.statusName? id c.store = some expected.name)
    (hr : r.expects? = some (id, expected)) {fresh : Proposal}
    (hstale : r.stale? (Store.answer now r c).1 = some fresh) :
    expected.Reaches fresh.status ∧ fresh.status ≠ expected ∧
      b.statusName? id (Store.answer now r c).2.store = some fresh.status.name ∧
      c.moves + 1 ≤ (Store.answer now r c).2.moves := by
  rw [answer_eq (StoreRequest.written?_of_expects? hr)] at hstale ⊢
  obtain ⟨hne, hsame, hfresh⟩ := StorageBackend.stale_status hr hstale
  have hshift := Gap.after_shift h.head c.store
  rw [hs, hfresh] at hshift
  have hnames : expected.name ≠ fresh.status.name := by
    intro hname
    exact hne (ProposalStatus.name_inj.mp hname).symm
  have hmoves := Gap.moves_pos h.head hs hfresh hnames
  refine ⟨hshift.reaches, hne, ?_, ?_⟩
  · simp only [hsame]
    exact hfresh
  · simp only
    omega

theorem no_contention (hr : r.expects? = some (id, expected)) (k : ProposalId) (n : Nat) :
    (Store.answer now r c).1 ≠ .error (.contention k n) := by
  rw [answer_eq (StoreRequest.written?_of_expects? hr)]
  exact StorageBackend.no_contention hr k n

end Contested

namespace Retries

variable {α : Type} {b : StorageBackend} {id : ProposalId} {admits : ProposalStatus → Bool}
  {attempts : Nat} {current : Proposal}
  {rest : Steps StoreRequest StoreRequest.Reply (Except Refusal α)}

/-- What a call makes of the answer to an attempt. -/
theorem query_bind (hadmits : admits current.status = true) {r : StoreRequest}
    (hr : r.expects? = some (id, current.status)) {k : r.Answer → Call α}
    (hover : ∀ a, r.stale? (.ok a) = none →
      ∃ outcome, (k a).steps = .done outcome ∧ Faultless outcome)
    (hstale : ∀ a fresh, r.stale? (.ok a) = some fresh →
      Retries id admits attempts fresh (k a).steps) :
    Retries id admits (attempts + 1) current (Call.query r >>= k).steps := by
  rw [Call.steps_query_bind]
  refine .ask attempts current hadmits r hr (fun reply hreply hfault => ?_) fun reply fresh hreply => ?_
  · cases reply with
    | error fault =>
      refine ⟨_, rfl, ?_⟩
      rintro ⟨n, tries, hgave⟩
      cases hgave
      exact hfault n tries rfl
    | ok a =>
      obtain ⟨outcome, hdone, hfaultless⟩ := hover a hreply
      exact ⟨outcome, hdone, hfaultless.not_gaveUp⟩
  · cases reply with
    | error fault => cases r <;> cases hreply
    | ok a => exact hstale a fresh hreply

/-- A call that the status does not admit is refused without an attempt. -/
theorem refused_of_not_admitted (h : Retries id admits attempts current rest) (hpos : 0 < attempts)
    (hcurrent : admits current.status = false) : ∃ outcome, rest = .done outcome ∧ ¬ GaveUp outcome := by
  cases h with
  | gaveUp _ outcome => exact absurd hpos (Nat.lt_irrefl 0)
  | refused _ _ outcome hnot => exact ⟨outcome, rfl, hnot⟩
  | ask _ _ hadmits r hr hover hstale =>
    rw [hcurrent] at hadmits
    cases hadmits

/-- **What an attempt comes to**: the call is not made, it ends with it, or it goes
on with a status that the one it saw reaches, to which others moved it. -/
theorem run_cases (h : Retries id admits (attempts + 1) current rest) {c : Contested b}
    (clock : Nat → Instant) (hc : c.Lawful id)
    (hs : b.statusName? id c.store = some current.status.name) :
    (∃ outcome c' clock', rest.run Timed.answer ⟨c, clock⟩ = (outcome, ⟨c', clock'⟩) ∧
      ¬ GaveUp outcome ∧ c'.attempts ≤ c.attempts + 1) ∨
    ∃ (fresh : Proposal) (rest' : Steps StoreRequest StoreRequest.Reply (Except Refusal α))
        (c' : Contested b) (clock' : Nat → Instant),
      rest.run Timed.answer ⟨c, clock⟩ = rest'.run Timed.answer ⟨c', clock'⟩ ∧
      Retries id admits attempts fresh rest' ∧ c'.Lawful id ∧
      b.statusName? id c'.store = some fresh.status.name ∧ admits current.status = true ∧
      current.status.Reaches fresh.status ∧ fresh.status ≠ current.status ∧
      c'.attempts = c.attempts + 1 ∧ c.moves + 1 ≤ c'.moves := by
  cases h with
  | refused _ _ outcome hnot => exact .inl ⟨outcome, c, clock, rfl, hnot, Nat.le_succ _⟩
  | ask _ _ hadmits r hr hover hstale =>
    have hwritten := StoreRequest.written?_of_expects? hr
    have hattempts : (Store.answer (clock 0) r c).2.attempts = c.attempts + 1 := by
      rw [Contested.answer_eq hwritten]
    rw [Steps.run_ask, Call.timed_answer]
    cases hreply : r.stale? (Store.answer (clock 0) r c).1 with
    | none =>
      obtain ⟨outcome, hdone, hnot⟩ := hover _ hreply (Contested.no_contention hr)
      left
      simp only [hdone, Steps.run_done]
      exact ⟨outcome, _, _, rfl, hnot, Nat.le_of_eq hattempts⟩
    | some fresh =>
      obtain ⟨hreach, hne, hfresh, hmoves⟩ := Contested.answer_stale hc hs hr hreply
      right
      exact ⟨fresh, _, _, _, rfl, hstale _ fresh hreply, hc.answer hwritten, hfresh, hadmits, hreach,
        hne, hattempts, hmoves⟩

/-- **Where the statuses that admit a call are ranked**, and moves among them go
down, a call that last saw a status makes at most one attempt more than the rank
of the status, and does not give up. -/
theorem run_ranked {rank : ProposalStatus → Nat}
    (hrank : ∀ s t, admits s = true → admits t = true → s.Reaches t → t ≠ s → rank t < rank s)
    (h : Retries id admits attempts current rest) {c : Contested b} (clock : Nat → Instant)
    (hc : c.Lawful id) (hs : b.statusName? id c.store = some current.status.name)
    (hlt : rank current.status + 1 < attempts) :
    ¬ GaveUp (rest.run Timed.answer ⟨c, clock⟩).1 ∧
      (rest.run Timed.answer ⟨c, clock⟩).2.store.attempts ≤ c.attempts + rank current.status + 1 := by
  induction attempts generalizing current rest c clock with
  | zero => omega
  | succ attempts ih =>
    rcases h.run_cases clock hc hs with ⟨outcome, c', clock', hrun, hnot, hle⟩ |
      ⟨fresh, rest', c', clock', hrun, hrest, hc', hfresh, hadmits, hreach, hne, hattempts, -⟩
    · rw [hrun]
      refine ⟨hnot, ?_⟩
      simp only
      omega
    · rw [hrun]
      by_cases hfits : admits fresh.status = true
      · have hdown := hrank _ _ hadmits hfits hreach hne
        obtain ⟨hnot, hle⟩ := ih hrest clock' hc' hfresh (by omega)
        refine ⟨hnot, ?_⟩
        omega
      · have hunfit : admits fresh.status = false := Bool.eq_false_of_not_eq_true hfits
        obtain ⟨outcome, hdone, hnot⟩ := hrest.refused_of_not_admitted (by omega) hunfit
        rw [hdone, Steps.run_done]
        refine ⟨hnot, ?_⟩
        simp only
        omega

/-- **A call that gives up met with a move before every attempt.** -/
theorem run_moved (h : Retries id admits attempts current rest) {c : Contested b}
    (clock : Nat → Instant) (hc : c.Lawful id)
    (hs : b.statusName? id c.store = some current.status.name)
    (hgave : GaveUp (rest.run Timed.answer ⟨c, clock⟩).1) :
    c.moves + attempts ≤ (rest.run Timed.answer ⟨c, clock⟩).2.store.moves := by
  induction attempts generalizing current rest c clock with
  | zero =>
    cases h with
    | gaveUp _ outcome => exact Nat.le_refl _
    | refused _ _ outcome hnot => exact Nat.le_refl _
  | succ attempts ih =>
    rcases h.run_cases clock hc hs with ⟨outcome, c', clock', hrun, hnot, -⟩ |
      ⟨fresh, rest', c', clock', hrun, hrest, hc', hfresh, -, -, -, -, hmoves⟩
    · rw [hrun] at hgave
      exact absurd hgave hnot
    · rw [hrun] at hgave ⊢
      have hle := ih hrest clock' hc' hfresh hgave
      omega

end Retries

/-! ### The operations on proposals -/

namespace Proposals

theorem retries_updateFrom (id : ProposalId) (fields : ProposalFields) (attempts : Nat)
    (p : Proposal) : Retries id ProposalStatus.isEditable attempts p
      (updateFrom id fields attempts p).steps := by
  induction attempts generalizing p with
  | zero => exact .gaveUp p _
  | succ attempts ih =>
    unfold updateFrom
    by_cases heditable : p.status.isEditable = true
    · rw [if_pos heditable]
      apply Retries.query_bind heditable (r := .replaceFields id p.status fields) rfl
      · rintro (p | p | _) hreply
        · exact ⟨_, rfl, .ok _⟩
        · cases hreply
        · exact ⟨_, rfl, .of_kind (by simp [Refusal.kind])⟩
      · rintro (p | p | _) fresh hreply <;> cases hreply
        exact ih _
    · rw [if_neg heditable]
      exact .refused _ p _ (Faultless.of_kind (by simp [Refusal.kind])).not_gaveUp

theorem retries_deleteFrom (id : ProposalId) (attempts : Nat) (p : Proposal) :
    Retries id ProposalStatus.isDeletable attempts p (deleteFrom id attempts p).steps := by
  induction attempts generalizing p with
  | zero => exact .gaveUp p _
  | succ attempts ih =>
    unfold deleteFrom
    by_cases hdeletable : p.status.isDeletable = true
    · rw [if_pos hdeletable]
      apply Retries.query_bind hdeletable (r := .deleteProposal id p.status) rfl
      · rintro (p | p | _) hreply
        · exact ⟨_, rfl, .ok _⟩
        · cases hreply
        · exact ⟨_, rfl, .of_kind (by simp [Refusal.kind])⟩
      · rintro (p | p | _) fresh hreply <;> cases hreply
        exact ih _
    · rw [if_neg hdeletable]
      exact .refused _ p _ (Faultless.of_kind (by simp [Refusal.kind])).not_gaveUp

theorem kind_denial_ne_internal (actor : Actor) (id : ProposalId) (action : ProposalAction) :
    (denial actor id action).kind ≠ .internal := by
  cases action <;> simp [denial, ProposalAction.party, Refusal.kind]

theorem retries_actFrom (actor : Actor) (id : ProposalId) (action : ProposalAction)
    (review : Option ReviewStamp) (attempts : Nat) (p : Proposal) :
    Retries id (fun s => (target? s action).isSome) attempts p
      (actFrom actor id action review attempts p).steps := by
  induction attempts generalizing p with
  | zero => exact .gaveUp p _
  | succ attempts ih =>
    unfold actFrom
    cases he : evaluate p.status action actor (isAuthor actor p) with
    | error reason =>
      cases reason with
      | denied => exact .refused _ p _ (Faultless.of_kind (kind_denial_ne_internal actor id action)).not_gaveUp
      | inapplicable => exact .refused _ p _ (Faultless.of_kind (by simp [Refusal.kind])).not_gaveUp
    | ok next =>
      have hnext : target? p.status action = some next := (evaluate_eq_ok_iff.mp he).2
      have hadmits : (target? p.status action).isSome = true := by
        rw [hnext]
        rfl
      apply Retries.query_bind hadmits (r := .setStatus id p.status next review) rfl
      · rintro (p | p | _) hreply
        · exact ⟨_, rfl, .ok _⟩
        · cases hreply
        · exact ⟨_, rfl, .of_kind (by simp [Refusal.kind])⟩
      · rintro (p | q | _) fresh hreply <;> cases hreply
        show Retries id _ attempts q (Call.steps (if _ then _ else _))
        by_cases hsees : canViewProposal (some actor) q = true
        · rw [if_pos hsees]
          exact ih _
        · rw [if_neg hsees]
          exact .refused _ _ _ (Faultless.of_kind (by simp [Refusal.kind])).not_gaveUp

end Proposals

/-! ### Whole calls -/

namespace StorageBackend

variable {b : StorageBackend} {α : Type}

/-- What a call comes to while others ask for these requests before each of its
conditional writes, and what it met with. -/
def contested (b : StorageBackend) (s : b.State) (gaps : List Gap) (clock : Nat → Instant)
    (call : Call α) : Except Refusal α × Contested b :=
  let ran := call.run ⟨({ store := s, gaps } : Contested b), clock⟩
  (ran.1, ran.2.store)

/-- A call begins with reading the proposal: it ends there, or it goes on with the
record that is stored. -/
theorem contested_load {s : b.State} {gaps : List Gap} {clock : Nat → Instant} {id : ProposalId}
    (visible : Proposal → Bool) {refusal : Refusal} {k : Proposal → Call α}
    (hrefusal : refusal.kind ≠ .internal) :
    let load := Call.query (.getProposal id) >>= fun r => Call.found r visible refusal
    (¬ GaveUp (b.contested s gaps clock (load >>= k)).1 ∧
      (b.contested s gaps clock (load >>= k)).2.attempts = 0) ∨
    ∃ p, b.statusName? id s = some p.status.name ∧
      b.contested s gaps clock (load >>= k) =
        b.contested s gaps (fun n => clock (n + 1)) (k p) := by
  intro load
  have hnot : ¬ GaveUp (.error refusal : Except Refusal α) := (Faultless.of_kind hrefusal).not_gaveUp
  have hsame : (Store.answer (clock 0) (.getProposal id) s).2 = s := by
    cases b <;> rfl
  have hanswer : Store.answer (clock 0) (.getProposal id) ({ store := s, gaps } : Contested b) =
      ((Store.answer (clock 0) (.getProposal id) s).1, { store := s, gaps }) := by
    show ((Store.answer (clock 0) (.getProposal id) s).1, _) = _
    rw [hsame]
  unfold contested load
  rw [bind_assoc, Call.run_query_bind, hanswer]
  cases hreply : (Store.answer (clock 0) (.getProposal id) s).1 with
  | error fault =>
    refine .inl ⟨?_, rfl⟩
    rintro ⟨n, attempts, hgave⟩
    cases hgave
    exact get_no_contention n attempts hreply
  | ok record =>
    simp only [Call.found_bind]
    cases record with
    | none => exact .inl ⟨hnot, rfl⟩
    | some p =>
      simp only
      by_cases hsees : visible p = true
      · rw [if_pos hsees]
        exact .inr ⟨p, statusName?_of_get hreply, rfl⟩
      · rw [if_neg hsees]
        exact .inl ⟨hnot, rfl⟩

section Load

variable {s : b.State} {gaps : List Gap} {clock : Nat → Instant} {id : ProposalId}
  (admits : ProposalStatus → Bool) {visible : Proposal → Bool} {refusal : Refusal}
  {k : Proposal → Call α}

/-- A call that begins with reading the proposal, where the statuses that admit it
are ranked. -/
theorem contested_ranked (rank : ProposalStatus → Nat) {bound : Nat}
    (hrank : ∀ s t, admits s = true → admits t = true → s.Reaches t → t ≠ s → rank t < rank s)
    (hbound : ∀ s, rank s ≤ bound) (hsmall : bound + 1 < Proposals.maxAttempts)
    (hgaps : ∀ gap ∈ gaps, Gap.Lawful id gap)
    (hrefusal : refusal.kind ≠ .internal)
    (hk : ∀ p, Retries id admits Proposals.maxAttempts p (k p).steps) :
    let load := Call.query (.getProposal id) >>= fun r => Call.found r visible refusal
    ¬ GaveUp (b.contested s gaps clock (load >>= k)).1 ∧
      (b.contested s gaps clock (load >>= k)).2.attempts ≤ bound + 1 := by
  intro load
  rcases contested_load visible hrefusal with ⟨hnot, hnone⟩ | ⟨p, hp, hrun⟩
  · exact ⟨hnot, (Nat.le_of_eq hnone).trans (Nat.zero_le _)⟩
  · have hle := hbound p.status
    obtain ⟨hnot, hattempts⟩ := (hk p).run_ranked hrank (fun n => clock (n + 1))
      (c := { store := s, gaps }) hgaps hp (by omega)
    rw [hrun]
    refine ⟨hnot, ?_⟩
    have hattempts' : (b.contested s gaps (fun n => clock (n + 1)) (k p)).2.attempts ≤
      0 + rank p.status + 1 := hattempts
    omega

/-- A call that begins with reading the proposal and gives up. -/
theorem contested_moved (hgaps : ∀ gap ∈ gaps, Gap.Lawful id gap)
    (hrefusal : refusal.kind ≠ .internal)
    (hk : ∀ p, Retries id admits Proposals.maxAttempts p (k p).steps) :
    let load := Call.query (.getProposal id) >>= fun r => Call.found r visible refusal
    GaveUp (b.contested s gaps clock (load >>= k)).1 →
      Proposals.maxAttempts ≤ (b.contested s gaps clock (load >>= k)).2.moves := by
  intro load hgave
  rcases contested_load visible hrefusal with ⟨hnot, -⟩ | ⟨p, hp, hrun⟩
  · exact absurd hgave hnot
  · rw [hrun] at hgave ⊢
    have hmoves := (hk p).run_moved (fun n => clock (n + 1)) (c := { store := s, gaps }) hgaps hp hgave
    have hmoves' : 0 + Proposals.maxAttempts ≤
      (b.contested s gaps (fun n => clock (n + 1)) (k p)).2.moves := hmoves
    omega

end Load

/-- How far a status is from the last one that admits an edit. -/
def editRank : ProposalStatus → Nat
  | .draft => 1
  | _ => 0

/-- Changes are asked for after a submission, and no action leads back to a draft. -/
theorem editRank_lt {s t : ProposalStatus} (hs : s = .draft ∨ s = .changesRequested)
    (ht : t = .draft ∨ t = .changesRequested) (h : s.Reaches t) (hne : t ≠ s) :
    editRank t < editRank s := by
  rcases ht with rfl | rfl
  · exact absurd h.eq_draft.symm hne
  · rcases hs with rfl | rfl
    · decide
    · exact absurd rfl hne

theorem editRank_le (s : ProposalStatus) : editRank s ≤ 1 := by
  cases s <;> decide

/-- What calls on a proposal come to while others ask for these requests. -/
structure BoundedAttempts (b : StorageBackend) (id : ProposalId) (s : b.State) (gaps : List Gap)
    (clock : Nat → Instant) : Prop where
  delete : ∀ actor,
    ¬ GaveUp (b.contested s gaps clock (Proposals.delete actor id)).1 ∧
      (b.contested s gaps clock (Proposals.delete actor id)).2.attempts ≤ 1
  review : ∀ actor action notes, action.party = .reviewer →
    ¬ GaveUp (b.contested s gaps clock (Proposals.act actor id action notes)).1 ∧
      (b.contested s gaps clock (Proposals.act actor id action notes)).2.attempts ≤ 1
  update : ∀ actor fields,
    ¬ GaveUp (b.contested s gaps clock (Proposals.update actor id fields)).1 ∧
      (b.contested s gaps clock (Proposals.update actor id fields)).2.attempts ≤ 2
  submit : ∀ actor notes,
    ¬ GaveUp (b.contested s gaps clock (Proposals.act actor id .submit notes)).1 ∧
      (b.contested s gaps clock (Proposals.act actor id .submit notes)).2.attempts ≤ 2
  withdraw : ∀ actor notes,
    GaveUp (b.contested s gaps clock (Proposals.act actor id .withdraw notes)).1 →
      8 ≤ (b.contested s gaps clock (Proposals.act actor id .withdraw notes)).2.moves

/-- **While others keep to the rules, only a withdrawal can give up**, and only if
the status was moved before each of its attempts. This holds of every store, of
every actor, and of whatever others ask for between the requests of the call. -/
theorem attempts_bounded (b : StorageBackend) (id : ProposalId) (s : b.State) (gaps : List Gap)
    (clock : Nat → Instant) (hgaps : ∀ gap ∈ gaps, Gap.Lawful id gap) :
    b.BoundedAttempts id s gaps clock where
  delete actor := by
    apply contested_ranked ProposalStatus.isDeletable fun _ => 0
    · intro s t hs ht _ hne
      rw [isDeletable_iff.mp hs, isDeletable_iff.mp ht] at hne
      exact absurd rfl hne
    · exact fun _ => Nat.le_refl 0
    · decide
    · exact hgaps
    · simp [Refusal.kind]
    · exact Proposals.retries_deleteFrom id Proposals.maxAttempts
  review actor action notes hparty := by
    apply contested_ranked (fun s => (target? s action).isSome) fun _ => 0
    · intro s t hs ht _ hne
      obtain ⟨_, hs⟩ := Option.isSome_iff_exists.mp hs
      obtain ⟨_, ht⟩ := Option.isSome_iff_exists.mp ht
      have hsubmitted := ProposalChange.eq_submitted_of_target? hparty hs
      rw [hsubmitted, ProposalChange.eq_submitted_of_target? hparty ht] at hne
      exact absurd rfl hne
    · exact fun _ => Nat.le_refl 0
    · decide
    · exact hgaps
    · simp [Refusal.kind]
    · exact Proposals.retries_actFrom actor id action _ Proposals.maxAttempts
  update actor fields := by
    apply contested_ranked ProposalStatus.isEditable editRank
    · intro s t hs ht
      exact editRank_lt (isEditable_iff.mp hs) (isEditable_iff.mp ht)
    · exact editRank_le
    · decide
    · exact hgaps
    · simp [Refusal.kind]
    · exact Proposals.retries_updateFrom id fields.trimmed Proposals.maxAttempts
  submit actor notes := by
    have hadmits : ∀ s, (target? s .submit).isSome = true → s = .draft ∨ s = .changesRequested := by
      intro s hs
      cases s <;> first | exact .inl rfl | exact .inr rfl | cases hs
    apply contested_ranked (fun s => (target? s .submit).isSome) editRank
    · intro s t hs ht
      exact editRank_lt (hadmits s hs) (hadmits t ht)
    · exact editRank_le
    · decide
    · exact hgaps
    · simp [Refusal.kind]
    · exact Proposals.retries_actFrom actor id .submit _ Proposals.maxAttempts
  withdraw actor notes := by
    apply contested_moved (fun s => (target? s .withdraw).isSome) hgaps
    · simp [Refusal.kind]
    · exact Proposals.retries_actFrom actor id .withdraw _ Proposals.maxAttempts

/-- The author of a submitted proposal withdraws it while changes are asked for and
the proposal is submitted again by turns, once before each attempt: the call
gives up, after eight moves. -/
theorem withdrawal_gives_up :
    let p : Proposal :=
      { id := 1, author := 7, fields := {}, status := .submitted, reviewNotes := "", reviewer := none
        createdAt := .epoch, updatedAt := .epoch }
    let s : Memory := { lastProposal := 1, proposals := Table.put ∅ p }
    let asked : StoreRequest :=
      .setStatus 1 .submitted .changesRequested (some { reviewer := 1, notes := "again" })
    let resubmitted : StoreRequest := .setStatus 1 .changesRequested .submitted none
    let gaps : List Gap :=
      (List.replicate 4 [[(Instant.epoch, asked)], [(Instant.epoch, resubmitted)]]).flatten
    let clock := fun _ : Nat => Instant.epoch
    let ran := memory.contested s gaps clock (Proposals.act { id := 7, role := .student } 1 .withdraw none)
    (∀ gap ∈ gaps, Gap.Lawful 1 gap) ∧ memory.BoundedAttempts 1 s gaps clock ∧
      GaveUp ran.1 ∧ ran.2.attempts = 8 ∧ ran.2.moves = 8 := by
  intro p s asked resubmitted gaps clock ran
  have hasked : asked.Lawful 1 := fun _ => .single ⟨.requestChanges, rfl⟩
  have hresubmitted : resubmitted.Lawful 1 := fun _ => .single ⟨.submit, rfl⟩
  have hgaps : ∀ gap ∈ gaps, Gap.Lawful 1 gap := by
    intro gap hgap request hrequest
    obtain ⟨pair, hpair, hgap⟩ := List.mem_flatten.mp hgap
    obtain rfl := List.eq_of_mem_replicate hpair
    simp only [List.mem_cons, List.not_mem_nil, or_false] at hgap
    rcases hgap with rfl | rfl
    · obtain rfl := List.mem_singleton.mp hrequest
      exact hasked
    · obtain rfl := List.mem_singleton.mp hrequest
      exact hresubmitted
  have hgave : ran.1 = .error (Proposals.contention 1) := by decide +kernel
  have hcounts : ran.2.attempts = 8 ∧ ran.2.moves = 8 := by decide +kernel
  exact ⟨hgaps, attempts_bounded memory 1 s gaps clock hgaps, ⟨1, 8, hgave⟩, hcounts⟩

end StorageBackend

end CourseBoard
