import StacksWallet.Proofs.Node.Acceptance
import StacksWallet.Proofs.Node.Target

/-!
# What a nonce is taken from

A nonce is asked for under the address of an account. The answer is read as a document, the document must be an object
with a nonce in it, and if it is not, the node is at fault. The nonce itself is brought to an integer like a number
that a caller gives: a number loses its fraction, a truth value counts as zero or one, and a numeral is read. A nonce of
another form is no integer, and then it is not the node that is at fault.
-/

namespace StacksWallet

/-- The fault is put down to the node. -/
def Fault.blamesNode : Fault → Bool
  | .node _ => true
  | _ => false

/-- The node is not at fault if there is no result. -/
def SparesNode {α : Type} (x : Except Fault α) : Prop := ∀ fault, x = .error fault → fault.blamesNode = false

namespace SparesNode

variable {α β : Type} {x : Except Fault α}

/-- A result is no fault. -/
theorem ok (a : α) : SparesNode (.ok a) := nofun

/-- A fault that is not the node's is none of the node's. -/
theorem error {fault : Fault} (h : fault.blamesNode = false) : SparesNode (.error fault : Except Fault α) :=
  fun _ heq => Except.error.inj heq ▸ h

/-- A sequence of steps spares the node if each of them does. -/
theorem bind {f : α → Except Fault β} (hx : SparesNode x) (hf : ∀ a, SparesNode (f a)) : SparesNode (x >>= f) :=
  fun fault h => (Outcome.bind_eq_error.mp h).elim (hx fault) fun ⟨a, _, ha⟩ => hf a fault ha

/-- A text that is no integer is the fault of whoever gave it. -/
theorem readInt (t : Text) : SparesNode (Datum.readInt t) := by
  rw [Datum.readInt]
  split
  · exact ok _
  · exact error rfl
  · exact error rfl

/-- So is a datum that yields no integer. -/
theorem truncate (d : Datum) : SparesNode d.truncate := by
  cases d with
  | absent => exact error rfl
  | flag b => exact ok _
  | integer n => exact ok n
  | real x =>
    rw [Datum.truncate]
    split
    · exact error rfl
    · split
      · exact error rfl
      · exact ok _
  | text t => exact readInt t
  | bytes b => exact readInt _

/-- So is a datum that yields no number. -/
theorem toReal (d : Datum) : SparesNode d.toReal := by
  cases d with
  | absent | bytes => exact error rfl
  | flag | real => exact ok _
  | integer n =>
    rw [Datum.toReal]
    split
    · exact error rfl
    · exact ok _
  | text t =>
    rw [Datum.toReal, Datum.readReal]
    split
    · exact ok _
    · exact error rfl

/-- So is a quantity that has none. -/
theorem quantityToReal (q : Quantity) : SparesNode q.toReal := by
  cases q with
  | whole n => exact toReal (.integer n)
  | real x => exact ok x

/-- So is a datum that is no quantity. -/
theorem quantityOfDatum (d : Datum) : SparesNode (Quantity.ofDatum d) := by
  cases d with
  | flag | integer | real => exact ok _
  | absent | text | bytes => exact error rfl

/-- So is a power beyond all numbers. -/
theorem power (q : Quantity) (n : Nat) : SparesNode (q.power n) := by
  cases q with
  | whole m => exact ok _
  | real x =>
    refine bind (toReal _) fun y => ?_
    dsimp only
    split
    · exact error rfl
    · exact ok _

/-- So is a product of which a factor has no number. -/
theorem times (q q' : Quantity) : SparesNode (q.times q') := by
  have hreal := bind (quantityToReal q) fun x => bind (quantityToReal q') fun y => ok (Quantity.real (x.mul y))
  cases q with
  | whole m =>
    cases q' with
    | whole n => exact ok _
    | real y => exact hreal
  | real x => exact hreal

/-- So is a wait without a number. -/
theorem backoffDelay (base factor jitter : Datum) (chance : Chance) (failed : Int) :
    SparesNode (backoffDelay base factor jitter chance failed) :=
  bind (quantityOfDatum factor) fun growth => bind (power growth _) fun growth => bind (quantityOfDatum base) fun base =>
    bind (times base growth) fun due => bind (quantityOfDatum jitter) fun jitter => bind (times _ jitter) fun more =>
      bind (quantityToReal due) fun _ => bind (quantityToReal more) fun _ => ok _

/-- So is a wait that the clock refuses. -/
theorem allow (clock : Clock) (delay : Binary64) : SparesNode (clock.allow delay) := by
  rw [Clock.allow]
  split
  · rename_i flaw _
    cases flaw <;> exact error rfl
  · exact ok ()

/-- So it is if there is no waiting. -/
theorem waitAfter (c : Client) (link : Link) (k : Nat) : SparesNode (c.waitAfter link k) :=
  bind (backoffDelay _ _ _ _ _) fun delay => bind (allow _ delay) fun _ => ok delay

end SparesNode

namespace Client

/-- The number that a nonce yields. -/
def numberOf (v : Json) : Except Fault Int :=
  match v.toDatum? with
  | some d => d.truncate
  | none => .error .mistyped

/-- The nonce that an answer to a request yields. -/
def nonceIn (path : Text) (request : Request) (r : Response) : Except Fault Int := do
  let body ← r.document request
  match body.get? "nonce" with
  | some v => numberOf v
  | none => .error (misfit .accountForm path body)

variable {c : Client} {link link' : Link} {path t : Text} {request : Request} {r : Response} {delays : List Binary64}
  {version : Fin 32} {hash : Hash160}

/-- No number is the node's fault. -/
theorem sparesNode_numberOf (v : Json) : SparesNode (numberOf v) := by
  rw [numberOf]
  split
  · exact SparesNode.truncate _
  · exact SparesNode.error rfl

/-- What an answer yields is read from its document, if it has one. -/
theorem nonceIn_of_document {body : Json} (herror : r.isError = false) (hjson : r.json? = some body) :
    nonceIn path request r =
      match body.get? "nonce" with
      | some v => numberOf v
      | none => .error (misfit .accountForm path body) := by
  rw [nonceIn, document_eq_ok_iff.mpr ⟨herror, hjson⟩]
  rfl

/-- What an answer yields is the number of its nonce, if its document has one. -/
theorem nonceIn_of_member {body v : Json} (herror : r.isError = false) (hjson : r.json? = some body)
    (hv : body.get? "nonce" = some v) : nonceIn path request r = numberOf v := by
  rw [nonceIn_of_document herror hjson, hv]

/-- An answer without such a document is the node's fault. -/
theorem exists_failure_of_nonceIn (path : Text) (request : Request)
    (h : ∀ body v, r.isError = false → r.json? = some body → body.get? "nonce" ≠ some v) :
    ∃ failure, nonceIn path request r = .error (.node failure) := by
  cases hdocument : r.document request with
  | error fault =>
    rw [nonceIn, hdocument]
    rw [Response.document] at hdocument
    split at hdocument
    · cases hdocument
      exact ⟨_, rfl⟩
    · split at hdocument
      · cases hdocument
      · cases hdocument
        exact ⟨_, rfl⟩
  | ok body =>
    obtain ⟨herror, hjson⟩ := document_eq_ok_iff.mp hdocument
    have hnone : body.get? "nonce" = none := Option.eq_none_iff_forall_ne_some.mpr fun v => h body v herror hjson
    rw [nonceIn_of_document herror hjson, hnone]
    exact ⟨_, rfl⟩

/-- The nonce of a valid address is what the answer to the request for its account yields. -/
theorem run_nonce (haddress : Address.parseParts t = .ok (version, hash)) (hrequest : c.accountRequest t = .ok request)
    (link : Link) :
    (c.nonce (.text t)).run link =
      match (c.send (accountPath t) (.ok request)).run link with
      | (.ok r, link') => (nonceIn (accountPath t) request r, link')
      | (.error fault, link') => (.error fault, link') := by
  have hgiven : Address.requireText (.text t) = .ok t := rfl
  have hmade : (c.getRequest (accountPath t)).map (fun r => { r with url := r.url.withItem "proof" "0" }) =
      .ok request := hrequest
  rw [nonce, Outcome.run_bind, accountInfo, Outcome.run_lift_bind hgiven, Outcome.run_lift_bind haddress]
  dsimp only
  rw [hmade, Outcome.run_bind, ask, Outcome.run_bind]
  rcases (c.send (accountPath t) (.ok request)).run link with ⟨fault | r, link'⟩
  · rfl
  · dsimp only
    rw [nonceIn, Outcome.run_lift_bind rfl]
    cases r.document request with
    | error fault => rfl
    | ok body =>
      have hrun : (liftM (Except.ok body : Except Fault Json) : Online Json).run link' = (.ok body, link') := rfl
      have hbind (f : Json → Except Fault Int) : (Except.ok body >>= f) = f body := rfl
      rw [hrun, hbind]
      dsimp only
      cases hv : body.get? "nonce" with
      | none => rfl
      | some v =>
        have hnumber : (match (body.get? "nonce").bind Json.toDatum? with
            | some d => liftM d.truncate
            | none => throw .mistyped : Online Int).run link' = (numberOf v, link') := by
          rw [hv, Option.bind_some, numberOf]
          cases v.toDatum? <;> rfl
        exact hnumber

/-- The state of every account can be asked for. -/
theorem exists_accountRequest (hroom : c.Roomy) (h : Address.parseParts t = .ok (version, hash)) :
    ∃ request, c.accountRequest t = .ok request := by
  obtain ⟨url, hurl⟩ := exists_urlOf_account hroom h
  rw [accountRequest, getRequest, hurl]
  exact ⟨_, rfl⟩

/-- One answer at most is received. -/
theorem Received.unique {delays' : List Binary64} {r' : Response} (h : c.Received link delays r)
    (h' : c.Received link delays' r') : r = r' := by
  have hlength := Option.some.inj (h.first.symm.trans h'.first)
  have hanswer := h.answer.symm.trans (hlength ▸ h'.answer)
  exact Outcome.answer.inj (Option.some.inj hanswer)

/-- A course in which a wait has no number or is not allowed ends with what is wrong with it. -/
theorem Course.spares_of_not_measured {giveUp : Json → Fault} {left : Nat} {result : Except Fault Response}
    (h : Course (c.waitAfter link) giveUp 0 left link.outcomes delays result) (hwaits : ¬ c.Measured link left) :
    ∃ fault, result = .error fault ∧ fault.blamesNode = false := by
  rcases h.ends with ⟨hcount, -⟩ | ⟨-, fault, hwait, hresult⟩
  · exact absurd (fun k hpos hk => h.exists_wait hpos (by omega)) hwaits
  · exact ⟨fault, hresult, SparesNode.waitAfter c link _ fault hwait⟩

/-- A course in which an outcome settles the matter comes to an answer, if the transport does not fail for good. -/
theorem Course.answer_of_not_unsettled {wait : Nat → Except Fault Binary64} {giveUp : Json → Fault} {allowed : Nat}
    {result : Except Fault Response} (h : Course wait giveUp 0 allowed link.outcomes delays result)
    (hcount : delays.length + 1 = attemptsFor link.outcomes allowed) (hearly : ¬ Unsettled link.outcomes allowed)
    (hthrough : ∀ name, .breakdown name ∉ link.outcomes) : ∃ r, result = .ok r := by
  obtain ⟨i, hfind, hi⟩ : ∃ i, link.outcomes.findIdx? Outcome.isSettled = some i ∧ i < allowed := by
    simpa only [Unsettled, not_forall, Nat.not_le, exists_prop] using hearly
  have hlast : delays.length = i := Nat.succ.inj (hcount.trans (attemptsFor_of_findIdx? hfind hi))
  obtain ⟨hlt, hsettled, -⟩ := List.findIdx?_eq_some_iff_getElem.mp hfind
  have houtcome : link.outcomes.getD delays.length .nobody = link.outcomes[i] := by
    rw [hlast, List.getD_eq_getElem?_getD, List.getElem?_eq_getElem hlt]
    rfl
  rcases h.ends with ⟨-, hresult⟩ | ⟨hless, -⟩
  · cases ho : link.outcomes[i] with
    | answer r =>
      rw [ho] at hsettled
      rw [hresult, houtcome, ho, verdict_answer hsettled]
      exact ⟨r, rfl⟩
    | interruption =>
      rw [ho] at hsettled
      cases hsettled
    | breakdown name => exact absurd (ho ▸ List.getElem_mem hlt) (hthrough name)
  · exact absurd hcount (Nat.ne_of_lt hless)

/-- A nonce is given as the number that it yields. -/
theorem nonce_of_member {body v : Json} (hroom : c.Roomy) (haddress : Address.parseParts t = .ok (version, hash))
    (hreceived : c.Received link delays r) (herror : r.isError = false) (hjson : r.json? = some body)
    (hv : body.get? "nonce" = some v) : ((c.nonce (.text t)).run link).1 = numberOf v := by
  obtain ⟨request, hrequest⟩ := exists_accountRequest hroom haddress
  have hsent : (c.send (accountPath t) (.ok request)).run link = (.ok r, link.tried request delays) :=
    send_eq_ok_iff.mpr ⟨request, delays, rfl, hreceived, rfl⟩
  rw [run_nonce haddress hrequest, hsent]
  exact nonceIn_of_member herror hjson hv

/-- What is given for a nonce is the natural number that the node has sent as such, or the node is at fault. -/
inductive SoundNonce (c : Client) (link : Link) : Except Fault Int → Prop where
  /-- The number stands in the document of the answer. -/
  | sent {n : Nat} {delays : List Binary64} {r : Response} {body : Json} (hreceived : c.Received link delays r)
      (herror : r.isError = false) (hjson : r.json? = some body) (hmember : body.get? "nonce" = some (.int n)) :
      SoundNonce c link (.ok n)
  /-- The fault is put down to the node. -/
  | blamed (failure : NodeFailure) : SoundNonce c link (.error (.node failure))

/-- A fault without the node's being blamed is not sound. -/
theorem SoundNonce.blamesNode {fault : Fault} (h : c.SoundNonce link (.error fault)) : fault.blamesNode = true := by
  cases h
  rfl

/-- A number that the node has sent as such is a natural number in the answer. -/
theorem SoundNonce.natural {body v : Json} (h : c.SoundNonce link (numberOf v)) (hreceived : c.Received link delays r)
    (hjson : r.json? = some body) (hv : body.get? "nonce" = some v) : ∃ n : Nat, v = .int n := by
  cases hnumber : numberOf v with
  | error fault =>
    rw [hnumber] at h
    cases (sparesNode_numberOf v fault hnumber).symm.trans h.blamesNode
  | ok n =>
    rw [hnumber] at h
    obtain @⟨n, _, _, _, hreceived', -, hjson', hv'⟩ := h
    obtain rfl := hreceived.unique hreceived'
    obtain rfl := Option.some.inj (hjson.symm.trans hjson')
    exact ⟨n, Option.some.inj (hv.symm.trans hv')⟩

/-- What an answer yields is sound if any nonce in its document is a natural number. -/
theorem soundNonce_nonceIn (path : Text) (request : Request) (hreceived : c.Received link delays r)
    (h : ∀ body v, r.isError = false → r.json? = some body → body.get? "nonce" = some v → ∃ n : Nat, v = .int n) :
    c.SoundNonce link (nonceIn path request r) := by
  by_cases hdocument : ∃ body v, r.isError = false ∧ r.json? = some body ∧ body.get? "nonce" = some v
  · obtain ⟨body, v, herror, hjson, hv⟩ := hdocument
    obtain ⟨n, rfl⟩ := h body v herror hjson hv
    rw [nonceIn_of_member herror hjson hv]
    exact .sent hreceived herror hjson hv
  · obtain ⟨failure, hfailure⟩ := exists_failure_of_nonceIn path request
      fun body v herror hjson hv => hdocument ⟨body, v, herror, hjson, hv⟩
    rw [hfailure]
    exact .blamed failure

/-- The nonce of a valid address is what the node has sent, or the node is at fault, exactly if each wait that is due has
a number and is allowed by the clock, the number of attempts can be told where it must be, and any nonce in the document
of an answer is a natural number. In general a nonce is given as the number that it yields. -/
theorem nonce_sound_iff {retries : Nat} (hretries : c.retryCount = .ok (retries : Int)) (hroom : c.Roomy)
    (haddress : Address.parseParts t = .ok (version, hash)) (hthrough : ∀ name, .breakdown name ∉ link.outcomes) :
    (c.SoundNonce link ((c.nonce (.text t)).run link).1 ↔
      c.Measured link (retries + 1) ∧ (Unsettled link.outcomes (retries + 1) → ¬ Overlong (retries + 1)) ∧
        ∀ delays r body v, c.Received link delays r → r.isError = false → r.json? = some body →
          body.get? "nonce" = some v → ∃ n : Nat, v = .int n) ∧
    ∀ delays r body v, c.Received link delays r → r.isError = false → r.json? = some body →
      body.get? "nonce" = some v → ((c.nonce (.text t)).run link).1 = numberOf v := by
  obtain ⟨request, hrequest⟩ := exists_accountRequest hroom haddress
  have hnonce := run_nonce haddress hrequest link
  obtain ⟨delays, result, hcourse⟩ :=
    exists_course (c.waitAfter link) (c.exhausted (accountPath t) (retries + 1)) 0 retries link.outcomes
  have hrun := hcourse.run_send hretries request
  rw [hrun] at hnonce
  refine ⟨⟨fun h => ?_, fun h => ?_⟩, fun _ _ _ _ => nonce_of_member hroom haddress⟩
  · have hwaits : c.Measured link (retries + 1) := by
      by_contra hwaits
      obtain ⟨fault, rfl, hspared⟩ := hcourse.spares_of_not_measured hwaits
      rw [hnonce] at h
      cases hspared.symm.trans h.blamesNode
    refine ⟨hwaits, fun hlate hlong => ?_, fun delays r body v hreceived herror hjson hv => ?_⟩
    · obtain ⟨-, seen, -, rfl⟩ := hcourse.result_of_unsettled (hcourse.length_of_measured hwaits) hlate
      rw [hnonce, Client.exhausted, Fault.showing_of_overlong hlong] at h
      cases h.blamesNode
    · rw [nonce_of_member hroom haddress hreceived herror hjson hv] at h
      exact h.natural hreceived hjson hv
  · obtain ⟨hwaits, hshown, hnatural⟩ := h
    have hcount := hcourse.length_of_measured hwaits
    by_cases hlate : Unsettled link.outcomes (retries + 1)
    · obtain ⟨-, seen, -, rfl⟩ := hcourse.result_of_unsettled hcount hlate
      rw [hnonce, Client.exhausted, Fault.showing_of_not_overlong (hshown hlate)]
      exact .blamed _
    · obtain ⟨r, rfl⟩ := hcourse.answer_of_not_unsettled hcount hlate hthrough
      obtain ⟨_, _, -, hreceived, -⟩ := send_eq_ok_iff.mp hrun
      rw [hnonce]
      exact soundNonce_nonceIn _ _ hreceived fun body v => hnatural _ r body v hreceived

/-- An account without a key. -/
def zeroAccount : Text := "SP000000000000000000002Q6VF78"

/-- Its address is valid. -/
theorem parseParts_zeroAccount : Address.parseParts zeroAccount = .ok (22, .zero) := by
  have htext : zeroAccount = Address.render 22 Hash160.zero.val := by decide +kernel
  rw [htext]
  exact Address.parseParts_eq_ok_iff.mpr ⟨Address.opens_render _ _, Address.normalize_render _ _⟩

/-- There is room for its path. -/
theorem usualClient_roomy : usualClient.Roomy := by
  rw [Roomy]
  decide

/-- A link with one answer, which carries a text. -/
def answering (t : Text) : Link := { outcomes := [.answer ⟨200, Utf8.bytes t⟩] }

/-- That answer is received. -/
theorem received_answering (t : Text) : usualClient.Received (answering t) [] ⟨200, Utf8.bytes t⟩ :=
  ⟨⟨2, rfl, Nat.zero_le _⟩, nofun, rfl, rfl⟩

/-- The document of the answer is what the text spells. -/
theorem json_of_received {t : Text} (h : usualClient.Received (answering t) delays r) :
    r.json? = Json.ofBytes? (Utf8.bytes t) := by
  rw [h.unique (received_answering t)]
  rfl

/-- An object with the nonce seven. -/
def sevenDocument : Text := "\x7b\"nonce\":7\x7d"

/-- A natural number is given as the node has sent it. -/
theorem nonce_sound_iff_seven :
    usualClient.retryCount = .ok ((2 : Nat) : Int) ∧ usualClient.Roomy ∧
      Address.parseParts zeroAccount = .ok (22, .zero) ∧
      usualClient.SoundNonce (answering sevenDocument)
        ((usualClient.nonce (.text zeroAccount)).run (answering sevenDocument)).1 := by
  have hretries : usualClient.retryCount = .ok ((2 : Nat) : Int) := rfl
  have hthrough : ∀ name, Outcome.breakdown name ∉ (answering sevenDocument).outcomes := by
    intro name hmem
    cases List.mem_singleton.mp hmem
  have hseven : Json.ofBytes? (Utf8.bytes sevenDocument) = some (.object [("nonce", .int 7)]) := by rfl
  refine ⟨hretries, usualClient_roomy, parseParts_zeroAccount,
    (nonce_sound_iff hretries usualClient_roomy parseParts_zeroAccount hthrough).1.mpr
      ⟨fun k hpos hk => ?_, fun hlate => ?_, fun delays r body v hreceived _ hjson hv => ?_⟩⟩
  · have hcount : attemptsFor (answering sevenDocument).outcomes 3 = 1 := rfl
    rw [hcount] at hk
    omega
  · exact absurd (hlate 0 rfl) (by decide)
  · rw [json_of_received hreceived, hseven] at hjson
    cases hjson
    exact ⟨7, (Option.some.inj hv).symm⟩

/-- An object with a truth value for its nonce. -/
def trueDocument : Text := "\x7b\"nonce\":true\x7d"

/-- An object with nothing for its nonce. -/
def nullDocument : Text := "\x7b\"nonce\":null\x7d"

/-- A truth value is given as a one, which the node has not sent; and where it sends a null, the fault is not put down
to the node. -/
theorem nonce_not_sound :
    (((usualClient.nonce (.text zeroAccount)).run (answering trueDocument)).1 = .ok 1 ∧
      ¬ usualClient.SoundNonce (answering trueDocument)
        ((usualClient.nonce (.text zeroAccount)).run (answering trueDocument)).1) ∧
    ((usualClient.nonce (.text zeroAccount)).run (answering nullDocument)).1 = .error .mistyped ∧
      ¬ usualClient.SoundNonce (answering nullDocument)
        ((usualClient.nonce (.text zeroAccount)).run (answering nullDocument)).1 := by
  have htrue : Json.ofBytes? (Utf8.bytes trueDocument) = some (.object [("nonce", .bool true)]) := by rfl
  have hnull : Json.ofBytes? (Utf8.bytes nullDocument) = some (.object [("nonce", .null)]) := by rfl
  have hone := nonce_of_member usualClient_roomy parseParts_zeroAccount (received_answering trueDocument) rfl htrue rfl
  have hnone := nonce_of_member usualClient_roomy parseParts_zeroAccount (received_answering nullDocument) rfl hnull rfl
  refine ⟨⟨hone, fun h => ?_⟩, hnone, fun h => ?_⟩
  · rw [hone] at h
    generalize hresult : (.ok 1 : Except Fault Int) = result at h
    cases h with
    | sent hreceived herror hjson hmember =>
      rw [json_of_received hreceived, htrue] at hjson
      cases hjson
      cases hmember
  · rw [hnone] at h
    cases h.blamesNode

end Client

end StacksWallet
