import StacksWallet.Node.Client
import StacksWallet.Proofs.Outcome
import StacksWallet.Proofs.Transaction.Refusal

/-!
# Attempts at a request

A request is tried until an outcome settles the matter, and no more often than the client allows. Between two attempts
there is one wait. The attempts are described by their course, which has a case for each way in which one of them may
go; every run follows exactly one course, and what a run comes to is read off it.

The waits grow, and there is no number for a wait that has grown beyond all of them; nor does a clock allow every wait
that has one. A run in which such a wait is due ends there, before the attempts are used up, and not with the failure
that is meant for a request tried in vain. Nothing is assumed of what chance adds to the waits, nor of the clock: both
may be different ones at every wait.
-/

namespace StacksWallet

/-- The outcome ends the attempts: an answer that is not transient, or a failure for good. -/
def Outcome.isSettled : Outcome → Bool
  | .answer r => !r.isTransient
  | .interruption .. => false
  | .breakdown _ => true

/-- How many requests are made of those that are allowed: none after the first outcome that settles the matter. -/
def attemptsFor (outcomes : List Outcome) (allowed : Nat) : Nat :=
  match outcomes.findIdx? Outcome.isSettled with
  | some i => min (i + 1) allowed
  | none => allowed

/-- What is done when a request is sent, and sent again after each of some waits. -/
def tries (request : Request) (delays : List Binary64) : List Action :=
  .request request :: delays.flatMap fun delay => [.wait delay, .request request]

namespace Link

/-- What becomes of the request after so many others. -/
def outcome (link : Link) (k : Nat) : Outcome := link.outcomes.getD k .nobody

/-- The link after a wait. -/
def waited (link : Link) (delay : Binary64) : Link := { link with record := .wait delay :: link.record }

/-- The link after a request was tried, and tried again after each of some waits. -/
def tried (link : Link) (request : Request) (delays : List Binary64) : Link :=
  { link with
    outcomes := link.outcomes.drop (delays.length + 1)
    record := (tries request delays).reverse ++ link.record }

variable {link : Link} {request : Request} {delay : Binary64} {delays : List Binary64}

/-- A request takes the next outcome. -/
theorem run_exchange (request : Request) (link : Link) :
    (exchange request).run link = (.ok (link.outcomes.headD .nobody), link.tried request []) := by
  obtain ⟨outcomes, record, moments⟩ := link
  cases outcomes <;> rfl

/-- A wait takes place if the clock of the moment allows it. -/
theorem run_wait (delay : Binary64) (link : Link) :
    (wait delay).run link =
      match link.moment.clock.allow delay with
      | .ok _ => (.ok (), link.waited delay)
      | .error fault => (.error fault, link) := by
  have hwait : (wait delay).run link = ((liftM (link.moment.clock.allow delay) : Online Unit) >>= fun _ =>
      set { link with record := Action.wait delay :: link.record }).run link := rfl
  rw [hwait, Outcome.run_bind]
  cases link.moment.clock.allow delay <;> rfl

/-- After an attempt and a wait, what is tried comes behind both. -/
theorem tried_waited : ((link.tried request []).waited delay).tried request delays =
    link.tried request (delay :: delays) := by
  simp [tried, waited, tries]

/-- Every attempt is recorded as the same request. -/
theorem requests_tried :
    (link.tried request delays).requests = List.replicate (delays.length + 1) request ++ link.requests := by
  induction delays generalizing link with
  | nil => rfl
  | cons delay delays ih =>
    have hfirst : ((link.tried request []).waited delay).requests = request :: link.requests := rfl
    rw [← tried_waited, ih, hfirst, List.length_cons, List.replicate_succ' (n := delays.length + 1), List.append_assoc]
    rfl

/-- The waits are recorded, the latest first. -/
theorem waits_tried : (link.tried request delays).waits = delays.reverse ++ link.waits := by
  induction delays generalizing link with
  | nil => rfl
  | cons delay delays ih =>
    have hfirst : ((link.tried request []).waited delay).waits = delay :: link.waits := rfl
    rw [← tried_waited, ih, hfirst, List.reverse_cons, List.append_assoc]
    rfl

/-- When a wait is due, one more request has been sent. -/
theorem moment_tried : (link.tried request []).moment = link.moments (link.requests.length + 1) := rfl

/-- The record tells how often a request was tried. -/
theorem length_eq_of_tried {delays' : List Binary64} (h : link.tried request delays = link.tried request delays') :
    delays.length = delays'.length := by
  have hwaits := congrArg (List.length ∘ waits) h
  simpa [waits_tried] using hwaits

end Link

namespace Client

/-- The wait that is due when so many more requests have been sent over the link, and so many attempts have failed: it
has a number, and the clock of that moment allows it. -/
def waitDue (c : Client) (link : Link) (sent failed : Nat) : Except Fault Binary64 := do
  let moment := link.moments (link.requests.length + sent)
  let delay ← backoffDelay c.backoffBase c.backoffFactor c.backoffJitter moment.chance failed
  moment.clock.allow delay
  return delay

/-- The wait after so many failed attempts at a request that is sent over the link. -/
def waitAfter (c : Client) (link : Link) (failed : Nat) : Except Fault Binary64 := c.waitDue link failed failed

/-- The course of the attempts that are left after some failed ones, if such waits are due: the waits between them, and
what they come to. -/
inductive Course (wait : Nat → Except Fault Binary64) (giveUp : Json → Fault) :
    Nat → Nat → List Outcome → List Binary64 → Except Fault Response → Prop where
  /-- The outcome settles the matter. -/
  | settled {failed left : Nat} {outcomes : List Outcome} {result : Except Fault Response}
      (h : verdict (outcomes.headD .nobody) = .settled result) : Course wait giveUp failed (left + 1) outcomes [] result
  /-- It does not, but no attempt is left. -/
  | exhausted {failed : Nat} {outcomes : List Outcome} {seen : Text}
      (h : verdict (outcomes.headD .nobody) = .again seen) :
      Course wait giveUp failed 1 outcomes [] (.error (giveUp (.text seen)))
  /-- It does not, and there is no waiting. -/
  | unmeasured {failed left : Nat} {outcomes : List Outcome} {seen : Text} {fault : Fault}
      (h : verdict (outcomes.headD .nobody) = .again seen) (hwait : wait (failed + 1) = .error fault) :
      Course wait giveUp failed (left + 2) outcomes [] (.error fault)
  /-- It does not, and there is another attempt after a wait. -/
  | again {failed left : Nat} {outcomes : List Outcome} {seen : Text} {delay : Binary64} {delays : List Binary64}
      {result : Except Fault Response} (h : verdict (outcomes.headD .nobody) = .again seen)
      (hwait : wait (failed + 1) = .ok delay)
      (hrest : Course wait giveUp (failed + 1) (left + 1) outcomes.tail delays result) :
      Course wait giveUp failed (left + 2) outcomes (delay :: delays) result

variable {c : Client} {link : Link} {wait : Nat → Except Fault Binary64} {giveUp : Json → Fault} {failed left : Nat}
  {outcomes : List Outcome} {delays : List Binary64} {result : Except Fault Response}

/-- The attempts have a course. -/
theorem exists_course (wait : Nat → Except Fault Binary64) (giveUp : Json → Fault) (failed left : Nat)
    (outcomes : List Outcome) : ∃ delays result, Course wait giveUp failed (left + 1) outcomes delays result := by
  induction left generalizing failed outcomes with
  | zero =>
    cases h : verdict (outcomes.headD .nobody) with
    | settled result => exact ⟨[], result, .settled h⟩
    | again seen => exact ⟨[], _, .exhausted h⟩
  | succ left ih =>
    cases h : verdict (outcomes.headD .nobody) with
    | settled result => exact ⟨[], result, .settled h⟩
    | again seen =>
      cases hwait : wait (failed + 1) with
      | error fault => exact ⟨[], _, .unmeasured h hwait⟩
      | ok delay =>
        obtain ⟨delays, result, hrest⟩ := ih (failed + 1) outcomes.tail
        exact ⟨delay :: delays, result, .again h hwait hrest⟩

/-- After an attempt and a wait, one request fewer is to be sent until the next waits are due. -/
theorem waitDue_waited (c : Client) (link : Link) (request : Request) (delay : Binary64) (sent failed : Nat) :
    c.waitDue ((link.tried request []).waited delay) sent failed = c.waitDue link (sent + 1) failed := by
  have hcount : link.requests.length + 1 + sent = link.requests.length + (sent + 1) := by omega
  rw [waitDue, waitDue, ← hcount]
  rfl

/-- An attempt ends with its outcome, or with the wait that is due, or it is followed by the next one. -/
theorem run_attempt_succ (c : Client) (giveUp : Json → Fault) (request : Request) (failed : Nat) (seen : Json)
    (left : Nat) (link : Link) :
    (attempt c giveUp request failed seen (left + 1)).run link =
      match verdict (link.outcomes.headD .nobody) with
      | .settled result => (result, link.tried request [])
      | .again seen =>
        match left with
        | 0 => (.error (giveUp (.text seen)), link.tried request [])
        | left + 1 =>
          match c.waitDue link 1 (failed + 1) with
          | .error fault => (.error fault, link.tried request [])
          | .ok delay =>
            (attempt c giveUp request (failed + 1) (.text seen) (left + 1)).run
              ((link.tried request []).waited delay) := by
  rw [attempt, Outcome.run_bind, Link.run_exchange]
  dsimp only
  cases verdict (link.outcomes.headD .nobody) with
  | settled result => cases result <;> rfl
  | again seen =>
    cases left with
    | zero => rfl
    | succ left =>
      have hcast : (failed : Int) + 1 = (failed + 1 : Nat) := rfl
      dsimp only
      rw [if_pos (Nat.succ_pos left), Outcome.run_get_bind, Link.moment_tried, waitDue, hcast]
      cases hdelay : backoffDelay c.backoffBase c.backoffFactor c.backoffJitter
          (link.moments (link.requests.length + 1)).chance (failed + 1 : Nat) with
      | error fault => rfl
      | ok delay =>
        rw [Outcome.run_lift_bind rfl, Outcome.run_bind, Link.run_wait, Link.moment_tried]
        cases hallow : (link.moments (link.requests.length + 1)).clock.allow delay with
        | error fault => simp only [bind, Except.bind, hallow]
        | ok => simp only [bind, Except.bind, hallow, pure, Except.pure]

/-- A run follows the course, if the waits are those that are due over the link. -/
theorem Course.run_attempt (h : Course wait giveUp failed left link.outcomes delays result)
    (hwaits : ∀ k, wait (failed + k) = c.waitDue link k (failed + k)) (request : Request) (seen : Json) :
    (attempt c giveUp request failed seen left).run link = (result, link.tried request delays) := by
  generalize houtcomes : link.outcomes = outcomes at h
  induction h generalizing link seen with
  | settled h => rw [run_attempt_succ, houtcomes, h]
  | exhausted h => rw [run_attempt_succ, houtcomes, h]
  | unmeasured h hwait =>
    rw [run_attempt_succ, houtcomes, h]
    dsimp only
    rw [← hwaits 1, hwait]
  | @again failed _ _ _ delay _ _ h hwait hrest ih =>
    rw [run_attempt_succ, houtcomes, h]
    dsimp only
    rw [← hwaits 1, hwait, ← Link.tried_waited]
    refine ih (fun k => ?_) _ ?_
    · have hindex : failed + 1 + k = failed + (k + 1) := by omega
      rw [waitDue_waited, hindex, hwaits]
    · rw [← houtcomes, ← List.drop_one]
      rfl

/-- What a verdict ends in if no attempt follows. -/
def Verdict.conclusion (giveUp : Json → Fault) : Verdict → Except Fault Response
  | settled result => result
  | again seen => .error (giveUp (.text seen))

/-- An outcome that settles the matter is settled. -/
theorem isSettled_of_settled {o : Outcome} (h : verdict o = .settled result) : o.isSettled = true := by
  cases o with
  | answer r =>
    rw [verdict] at h
    split at h
    · cases h
    · rename_i hr
      rw [Outcome.isSettled, Bool.eq_false_iff.mpr hr]
      rfl
  | interruption => cases h
  | breakdown => rfl

/-- An outcome that calls for another attempt is not. -/
theorem isSettled_of_again {o : Outcome} {seen : Text} (h : verdict o = .again seen) : o.isSettled = false := by
  cases o with
  | answer r =>
    rw [verdict] at h
    split at h
    · rename_i hr
      rw [Outcome.isSettled, hr]
      rfl
    · cases h
  | interruption => rfl
  | breakdown => cases h

/-- The first outcome that settles the matter, if it comes in time, is that of the last request. -/
theorem attemptsFor_of_findIdx? {allowed i : Nat} (hfind : outcomes.findIdx? Outcome.isSettled = some i)
    (hi : i < allowed) : attemptsFor outcomes allowed = i + 1 := by
  rw [attemptsFor, hfind]
  exact Nat.min_eq_left hi

/-- No request follows an outcome that settles the matter. -/
theorem attemptsFor_of_settled {allowed : Nat} (h : (outcomes.headD .nobody).isSettled = true) :
    attemptsFor outcomes (allowed + 1) = 1 := by
  cases outcomes with
  | nil => cases h
  | cons o rest =>
    have ho : o.isSettled = true := h
    rw [attemptsFor, List.findIdx?_cons, if_pos ho]
    dsimp only
    omega

/-- After another outcome, one request fewer is left. -/
theorem attemptsFor_of_not_settled {allowed : Nat} (h : (outcomes.headD .nobody).isSettled = false) :
    attemptsFor outcomes (allowed + 1) = attemptsFor outcomes.tail allowed + 1 := by
  cases outcomes with
  | nil => rfl
  | cons o rest =>
    have ho : ¬ o.isSettled = true := Bool.eq_false_iff.mp h
    rw [attemptsFor, attemptsFor, List.findIdx?_cons, if_neg ho, List.tail_cons]
    cases List.findIdx? Outcome.isSettled rest with
    | none => rfl
    | some i =>
      dsimp only [Option.map_some]
      omega

/-- Where none is allowed, no request is made. -/
theorem attemptsFor_zero : attemptsFor outcomes 0 = 0 := by
  rw [attemptsFor]
  split
  · exact Nat.min_zero _
  · rfl

/-- At least one request is made of those that are allowed. -/
theorem attemptsFor_pos {allowed : Nat} : 0 < attemptsFor outcomes (allowed + 1) := by
  cases h : (outcomes.headD .nobody).isSettled with
  | true => rw [attemptsFor_of_settled h]; exact Nat.one_pos
  | false => rw [attemptsFor_of_not_settled h]; exact Nat.succ_pos _

/-- The waits of a course are those that are due. -/
theorem Course.measured (h : Course wait giveUp failed left outcomes delays result) (k : Nat) (hk : k < delays.length) :
    wait (failed + k + 1) = .ok delays[k] := by
  induction h generalizing k with
  | settled | exhausted | unmeasured => cases hk
  | @again failed _ _ _ _ _ _ _ hwait _ ih =>
    cases k with
    | zero => exact hwait
    | succ k =>
      have hindex : failed + (k + 1) + 1 = failed + 1 + k + 1 := by omega
      rw [hindex]
      exact ih k (Nat.lt_of_succ_lt_succ hk)

/-- A course ends with the last request that is to be made, in what its outcome comes to; or it ends before, where a
wait is due and there is none. -/
theorem Course.ends (h : Course wait giveUp failed left outcomes delays result) :
    delays.length + 1 = attemptsFor outcomes left ∧
        result = (verdict (outcomes.getD delays.length .nobody)).conclusion giveUp ∨
      delays.length + 1 < attemptsFor outcomes left ∧
        ∃ fault, wait (failed + delays.length + 1) = .error fault ∧ result = .error fault := by
  have hfirst (outcomes : List Outcome) : outcomes.getD 0 .nobody = outcomes.headD .nobody := by cases outcomes <;> rfl
  have hlater (outcomes : List Outcome) (k : Nat) : outcomes.tail.getD k .nobody = outcomes.getD (k + 1) .nobody := by
    cases outcomes <;> rfl
  induction h with
  | settled h =>
    rw [List.length_nil, attemptsFor_of_settled (isSettled_of_settled h), hfirst, h]
    exact .inl ⟨rfl, rfl⟩
  | exhausted h =>
    rw [List.length_nil, attemptsFor_of_not_settled (isSettled_of_again h), hfirst, h]
    exact .inl ⟨congrArg (· + 1) attemptsFor_zero.symm, rfl⟩
  | unmeasured h hwait =>
    rw [List.length_nil, attemptsFor_of_not_settled (isSettled_of_again h)]
    exact .inr ⟨Nat.succ_lt_succ attemptsFor_pos, _, hwait, rfl⟩
  | @again failed _ outcomes _ _ delays _ h hwait _ ih =>
    have hindex : failed + (delays.length + 1) + 1 = failed + 1 + delays.length + 1 := by omega
    rw [List.length_cons, attemptsFor_of_not_settled (isSettled_of_again h), ← hlater, hindex]
    exact ih.imp (And.imp_left (congrArg (· + 1))) (And.imp_left Nat.succ_lt_succ)

/-- A request is sent in as many attempts as the client has retries, and one. -/
theorem run_send_eq {retries : Nat} (hretries : c.retryCount = .ok (retries : Int)) (path : Text) (request : Request)
    (link : Link) :
    (c.send path (.ok request)).run link =
      (attempt c (c.exhausted path (retries + 1)) request 0 .null (retries + 1)).run link := by
  have hpos : ¬ (retries : Int) + 1 ≤ 0 := by omega
  have hcount : ((retries : Int) + 1).toNat = retries + 1 := by omega
  rw [send, Outcome.run_lift_bind hretries]
  dsimp only
  rw [if_neg hpos, hcount]
  rfl

/-- Sending a request follows the course. -/
theorem Course.run_send {retries : Nat} {path : Text}
    (h : Course (c.waitAfter link) (c.exhausted path (retries + 1)) 0 (retries + 1) link.outcomes delays result)
    (hretries : c.retryCount = .ok (retries : Int)) (request : Request) :
    (c.send path (.ok request)).run link = (result, link.tried request delays) := by
  refine (run_send_eq hretries path request link).trans (h.run_attempt (fun k => ?_) request .null)
  rw [Nat.zero_add]
  rfl

/-- None of so many outcomes settles the matter. -/
def Unsettled (outcomes : List Outcome) (allowed : Nat) : Prop :=
  ∀ i, outcomes.findIdx? Outcome.isSettled = some i → allowed ≤ i

/-- There is a number for each wait between two of the requests that are made, and the clock allows it. -/
def Measured (c : Client) (link : Link) (allowed : Nat) : Prop :=
  ∀ k, 0 < k → k < attemptsFor link.outcomes allowed → ∃ delay, c.waitAfter link k = .ok delay

/-- A request that may be tried again so many times comes to its end. It is sent up to the first outcome that settles
the matter, or as often as it may be, and there is a wait between each two requests and none behind the last one. It
comes to the answer that settles the matter, or else to a failure of the node that tells the last outcome. -/
structure Concludes (c : Client) (retries : Nat) (path : Text) (request : Request) (link : Link)
    (delays : List Binary64) (result : Except Fault Response) : Prop where
  count : delays.length + 1 = attemptsFor link.outcomes (retries + 1)
  measured : ∀ k (hk : k < delays.length), c.waitAfter link (k + 1) = .ok delays[k]
  run : (c.send path (.ok request)).run link = (result, link.tried request delays)
  settled : ∀ i r, link.outcomes.findIdx? Outcome.isSettled = some i → i ≤ retries →
    link.outcomes[i]? = some (.answer r) → result = .ok r
  exhausted : Unsettled link.outcomes (retries + 1) →
    ∃ seen, verdict (link.outcome retries) = .again seen ∧
      result = .error
        (.node { flaw := .exhausted (retries + 1), url := some (c.baseUrl ++ path), body := .text seen })

/-- An outcome that is not settled calls for another attempt. -/
theorem exists_again_of_not_settled {o : Outcome} (h : o.isSettled = false) : ∃ seen, verdict o = .again seen := by
  cases hverdict : verdict o with
  | settled result => cases h.symm.trans (isSettled_of_settled hverdict)
  | again seen => exact ⟨seen, rfl⟩

/-- An answer that is settled is what is returned. -/
theorem verdict_answer {r : Response} (h : (Outcome.answer r).isSettled = true) :
    verdict (.answer r) = .settled (.ok r) := by
  have hr : ¬ r.isTransient = true := by
    rw [Outcome.isSettled, Bool.not_eq_true'] at h
    exact Bool.eq_false_iff.mp h
  rw [verdict, if_neg hr]

/-- Where nothing settles the matter, all requests are made that are allowed. -/
theorem Unsettled.attemptsFor {allowed : Nat} (h : Unsettled outcomes allowed) :
    attemptsFor outcomes allowed = allowed := by
  rw [StacksWallet.attemptsFor]
  cases hfind : outcomes.findIdx? Outcome.isSettled with
  | none => rfl
  | some i => exact Nat.min_eq_right (Nat.le_succ_of_le (h i hfind))

/-- None of the outcomes is settled then. -/
theorem Unsettled.not_settled {link : Link} {allowed k : Nat} (h : Unsettled link.outcomes allowed) (hk : k < allowed) :
    (link.outcome k).isSettled = false := by
  rw [Link.outcome, List.getD_eq_getElem?_getD]
  cases hget : link.outcomes[k]? with
  | none => rfl
  | some o =>
    obtain ⟨hlt, rfl⟩ := List.getElem?_eq_some_iff.mp hget
    cases hfind : link.outcomes.findIdx? Outcome.isSettled with
    | none => exact List.findIdx?_eq_none_iff.mp hfind _ (List.getElem_mem hlt)
    | some i =>
      obtain ⟨_, -, hbefore⟩ := List.findIdx?_eq_some_iff_getElem.mp hfind
      exact Bool.eq_false_iff.mpr (hbefore k (hk.trans_le (h i hfind)))

section Send

variable {retries : Nat} (hretries : c.retryCount = .ok (retries : Int)) {path : Text} {request : Request} {link : Link}

/-- There is a number for each wait of a course. -/
theorem Course.exists_wait (h : Course wait giveUp 0 left outcomes delays result) {k : Nat} (hpos : 0 < k)
    (hk : k ≤ delays.length) : ∃ delay, wait k = .ok delay := by
  obtain ⟨j, rfl⟩ : ∃ j, k = 0 + j + 1 := ⟨k - 1, by omega⟩
  exact ⟨_, h.measured j (by omega)⟩

/-- A course with numbers for its waits has all its requests. -/
theorem Course.length_of_measured (h : Course (c.waitAfter link) giveUp 0 left link.outcomes delays result)
    (hwaits : c.Measured link left) : delays.length + 1 = attemptsFor link.outcomes left := by
  rcases h.ends with ⟨hcount, -⟩ | ⟨hless, fault, hwait, -⟩
  · exact hcount
  · rw [Nat.zero_add] at hwait
    obtain ⟨delay, hdelay⟩ := hwaits _ (Nat.succ_pos _) hless
    cases hwait.symm.trans hdelay

/-- A course in which nothing settles the matter, and which has all its requests, tells the last outcome. -/
theorem Course.result_of_unsettled (h : Course wait giveUp 0 (retries + 1) link.outcomes delays result)
    (hcount : delays.length + 1 = attemptsFor link.outcomes (retries + 1))
    (hlate : Unsettled link.outcomes (retries + 1)) :
    delays.length = retries ∧
      ∃ seen, verdict (link.outcome retries) = .again seen ∧ result = .error (giveUp (.text seen)) := by
  have hlength : delays.length = retries := by
    rw [hlate.attemptsFor] at hcount
    exact Nat.succ.inj hcount
  obtain ⟨seen, hseen⟩ := exists_again_of_not_settled (hlate.not_settled (Nat.lt_succ_self retries))
  refine ⟨hlength, seen, hseen, ?_⟩
  rcases h.ends with ⟨-, hresult⟩ | ⟨hless, -⟩
  · rw [hresult, hlength, ← Link.outcome, hseen]
    rfl
  · exact absurd hcount (Nat.ne_of_lt hless)

include hretries

/-- A course with all its requests is that of a request that comes to its end, if the number of attempts can be told
where it must be. -/
theorem Course.concludes
    (h : Course (c.waitAfter link) (c.exhausted path (retries + 1)) 0 (retries + 1) link.outcomes delays result)
    (hcount : delays.length + 1 = attemptsFor link.outcomes (retries + 1))
    (hshown : Unsettled link.outcomes (retries + 1) → ¬ Overlong (retries + 1)) :
    c.Concludes retries path request link delays result := by
  refine ⟨hcount, fun k hk => ?_, h.run_send hretries request, fun i r hfind hi hr => ?_, fun hlate => ?_⟩
  · have hdelay := h.measured k hk
    rwa [Nat.zero_add] at hdelay
  · have hlast : delays.length = i :=
      Nat.succ.inj (hcount.trans (attemptsFor_of_findIdx? hfind (Nat.lt_succ_of_le hi)))
    have hanswer : link.outcome i = .answer r := by
      rw [Link.outcome, List.getD_eq_getElem?_getD, hr]
      rfl
    have hsettled : (Outcome.answer r).isSettled = true := by
      obtain ⟨_, hi, -⟩ := List.findIdx?_eq_some_iff_getElem.mp hfind
      rwa [(List.getElem?_eq_some_iff.mp hr).2] at hi
    rcases h.ends with ⟨-, hresult⟩ | ⟨hless, -⟩
    · rw [hresult, hlast, ← Link.outcome, hanswer, verdict_answer hsettled]
      rfl
    · exact absurd hcount (Nat.ne_of_lt hless)
  · obtain ⟨-, seen, hseen, hresult⟩ := h.result_of_unsettled hcount hlate
    refine ⟨seen, hseen, ?_⟩
    rw [hresult, Client.exhausted, Fault.showing_of_not_overlong (hshown hlate)]

/-- A request comes to its end exactly if each wait that is due between two of its attempts has a number and is allowed
by the clock, and the number of attempts is not too long to be told where it must be. If a wait has no number or is not
allowed, the request was sent as often as to that wait, and the run ends with what is wrong with it; and if the attempts
are too many to be told, it ends with that after all of them. -/
theorem concludes_iff (path : Text) (request : Request) (link : Link) :
    ((∃ delays result, c.Concludes retries path request link delays result) ↔
      c.Measured link (retries + 1) ∧ (Unsettled link.outcomes (retries + 1) → ¬ Overlong (retries + 1))) ∧
    (∀ k fault, 0 < k → k < attemptsFor link.outcomes (retries + 1) →
      (∀ j, 0 < j → j < k → ∃ delay, c.waitAfter link j = .ok delay) → c.waitAfter link k = .error fault →
        ∃ delays : List Binary64, delays.length + 1 = k ∧
          (c.send path (.ok request)).run link = (.error fault, link.tried request delays)) ∧
    (c.Measured link (retries + 1) → Unsettled link.outcomes (retries + 1) → Overlong (retries + 1) →
      ∃ delays : List Binary64, delays.length = retries ∧
        (c.send path (.ok request)).run link = (.error (.argument .unshowable), link.tried request delays)) := by
  obtain ⟨delays, result, hcourse⟩ :=
    exists_course (c.waitAfter link) (c.exhausted path (retries + 1)) 0 retries link.outcomes
  have hrun := hcourse.run_send hretries request
  refine ⟨⟨fun h => ?_, fun h => ?_⟩, fun k fault hpos hk hbefore hwait => ?_, fun hwaits hlate hlong => ?_⟩
  · obtain ⟨delays', result', h⟩ := h
    obtain ⟨hresult, hlink⟩ := Prod.mk.inj (hrun.symm.trans h.run)
    have hcount : delays.length + 1 = attemptsFor link.outcomes (retries + 1) := by
      rw [Link.length_eq_of_tried hlink, h.count]
    refine ⟨fun k hpos hk => hcourse.exists_wait hpos (by omega), fun hlate hlong => ?_⟩
    obtain ⟨-, seen, -, hresult'⟩ := hcourse.result_of_unsettled hcount hlate
    obtain ⟨seen', -, hnode⟩ := h.exhausted hlate
    rw [Client.exhausted, Fault.showing_of_overlong hlong] at hresult'
    cases (hresult'.symm.trans hresult).trans hnode
  · exact ⟨delays, result, hcourse.concludes hretries (hcourse.length_of_measured h.1) h.2⟩
  · -- The course has reached the wait without a number, and it cannot have gone beyond.
    have hreached : ¬ k ≤ delays.length := by
      intro hle
      obtain ⟨delay, hdelay⟩ := hcourse.exists_wait hpos hle
      cases hwait.symm.trans hdelay
    rcases hcourse.ends with ⟨hcount, -⟩ | ⟨hless, fault', hwait', hresult⟩
    · omega
    · rw [Nat.zero_add] at hwait'
      have hlength : delays.length + 1 = k := by
        rcases Nat.lt_or_ge (delays.length + 1) k with hlt | hge
        · obtain ⟨delay, hdelay⟩ := hbefore _ (Nat.succ_pos _) hlt
          cases hwait'.symm.trans hdelay
        · omega
      rw [hlength] at hwait'
      obtain rfl := Except.error.inj (hwait.symm.trans hwait')
      exact ⟨delays, hlength, by rw [hrun, hresult]⟩
  · obtain ⟨hlength, seen, -, hresult⟩ := hcourse.result_of_unsettled (hcourse.length_of_measured hwaits) hlate
    rw [Client.exhausted, Fault.showing_of_overlong hlong] at hresult
    exact ⟨delays, hlength, by rw [hrun, hresult]⟩

end Send

/-- A factor without a power leaves no wait, whatever the first wait is and whatever chance would add. -/
theorem waitDue_of_power {factor : Quantity} {sent : Nat} {fault : Fault}
    (hfactor : Quantity.ofDatum c.backoffFactor = .ok factor)
    (hpower : factor.power ((failed : Int) - 1).toNat = .error fault) : c.waitDue link sent failed = .error fault := by
  have hdelay (chance : Chance) : backoffDelay c.backoffBase c.backoffFactor c.backoffJitter chance failed =
      .error fault := by
    rw [backoffDelay, hfactor]
    exact Outcome.bind_eq_error.mpr (.inr ⟨factor, rfl, Outcome.bind_eq_error.mpr (.inl hpower)⟩)
  exact Outcome.bind_eq_error.mpr (.inl (hdelay _))

/-- A client that tries again twice, with the usual waits. -/
def usualClient : Client where
  baseUrl := "http://node"
  root := ⟨"http", [], "node", none, "/", none, none⟩
  retries := .integer 2
  backoffBase := defaultBackoffBase
  backoffFactor := .real Config.defaultBackoff
  backoffJitter := defaultBackoffJitter
  headers := []

/-- What it asks at its root. -/
def plainRequest : Request := ⟨.get, usualClient.root, [], .empty⟩

/-- A link on which a request is refused, then interrupted, and then answered. One half is drawn at every wait, and the
system has been on for a second. -/
def rightingLink : Link :=
  { outcomes := [.answer ⟨503, []⟩, .nobody, .answer ⟨200, []⟩]
    moments := fun _ => ⟨⟨0x10_0000_0000_0000, by decide⟩, .system 1_000_000_000⟩ }

/-- The clock allows both waits. -/
theorem concludes_iff_usualClient :
    usualClient.retryCount = .ok ((2 : Nat) : Int) ∧
      ∃ delays result, usualClient.Concludes 2 "/" plainRequest rightingLink delays result := by
  have hretries : usualClient.retryCount = .ok ((2 : Nat) : Int) := rfl
  have hfirst : (usualClient.waitAfter rightingLink 1).toOption.isSome = true := by decide +kernel
  have hsecond : (usualClient.waitAfter rightingLink 2).toOption.isSome = true := by decide +kernel
  have hwait (k : Nat) (h : (usualClient.waitAfter rightingLink k).toOption.isSome = true) :
      ∃ delay, usualClient.waitAfter rightingLink k = .ok delay := by
    obtain ⟨delay, hdelay⟩ := Option.isSome_iff_exists.mp h
    exact ⟨delay, Outcome.toOption_eq_some_iff.mp hdelay⟩
  refine ⟨hretries, (concludes_iff hretries "/" plainRequest rightingLink).1.mpr ⟨fun k hpos hk => ?_, fun hlate => ?_⟩⟩
  · have hcount : attemptsFor rightingLink.outcomes 3 = 3 := rfl
    rw [hcount] at hk
    obtain rfl | rfl : k = 1 ∨ k = 2 := by omega
    · exact hwait 1 hfirst
    · exact hwait 2 hsecond
  · exact absurd (hlate 2 rfl) (by decide)

/-- A client whose waits are of no seconds each, by a factor that grows beyond all numbers. -/
def steepClient : Client :=
  { usualClient with
    retries := .integer 3
    backoffBase := .real (Binary64.ofInt 0)
    backoffFactor := .real (Binary64.ofDecimal false 1 200)
    backoffJitter := .real (Binary64.ofInt 0) }

/-- A link on which nothing but transient refusals is to be had. -/
def busyLink : Link := { outcomes := List.replicate 4 (.answer ⟨503, []⟩) }

/-- There is no third wait for this client: it may try a request four times, and fails after the third. -/
theorem steepClient_not_concludes :
    steepClient.retryCount = .ok ((3 : Nat) : Int) ∧
      ((steepClient.send "/" (.ok plainRequest)).run busyLink).1 = .error (.overflow .powerRange) ∧
      ((steepClient.send "/" (.ok plainRequest)).run busyLink).2.requests = List.replicate 3 plainRequest ∧
      ((steepClient.send "/" (.ok plainRequest)).run busyLink).2.waits = List.replicate 2 (Binary64.ofInt 0) ∧
      ¬ ∃ delays result, steepClient.Concludes 3 "/" plainRequest busyLink delays result := by
  have hretries : steepClient.retryCount = .ok ((3 : Nat) : Int) := rfl
  have hfirst : steepClient.waitAfter busyLink 1 = .ok (Binary64.ofInt 0) :=
    Outcome.toOption_eq_some_iff.mp (by decide +kernel)
  have hsecond : steepClient.waitAfter busyLink 2 = .ok (Binary64.ofInt 0) :=
    Outcome.toOption_eq_some_iff.mp (by decide +kernel)
  have hpower : (Quantity.real (Binary64.ofDecimal false 1 200)).power 2 = .error (.overflow .powerRange) := by
    have hexponent : (Datum.integer (2 : Nat)).toReal = .ok (Binary64.ofInt 2) := by
      rw [Datum.toReal]
      exact if_neg (by decide +kernel)
    exact Outcome.bind_eq_error.mpr (.inr ⟨_, hexponent, if_pos (by decide +kernel)⟩)
  have hthird : steepClient.waitAfter busyLink 3 = .error (.overflow .powerRange) := waitDue_of_power rfl hpower
  have hcourse : Course (steepClient.waitAfter busyLink) (steepClient.exhausted "/" 4) 0 4 busyLink.outcomes _ _ :=
    .again rfl hfirst (.again rfl hsecond (.unmeasured rfl hthird))
  have hrun := hcourse.run_send hretries plainRequest
  refine ⟨hretries, congrArg Prod.fst hrun, ?_, ?_, fun ⟨delays, result, h⟩ => ?_⟩
  · rw [congrArg Prod.snd hrun, Link.requests_tried]
    rfl
  · rw [congrArg Prod.snd hrun, Link.waits_tried]
    rfl
  · have hsame := Link.length_eq_of_tried (Prod.mk.inj (hrun.symm.trans h.run)).2
    have hcount : delays.length + 1 = 4 := h.count
    rw [← hsame] at hcount
    cases hcount

end Client

end StacksWallet
