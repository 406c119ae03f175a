import StacksWallet.Node.Service
import StacksWallet.Proofs.Node.Retry

/-!
# What is taken for success

A request is answered by the first outcome that settles the matter, if that comes in time and is an answer. What a
question has for its reply is read from the content of that answer. The status decides only whether the content is
read: it is, unless the status is that of an error. So an answer that sends the client elsewhere, or that is not the
last word, is read like one that reports success.
-/

namespace StacksWallet

namespace Client

/-- The answer with which the attempts at a request end, after the waits between them. -/
structure Received (c : Client) (link : Link) (delays : List Binary64) (r : Response) : Prop where
  allowed : ∃ retries : Nat, c.retryCount = .ok (retries : Int) ∧ delays.length ≤ retries
  measured : ∀ k (hk : k < delays.length), c.waitAfter link (k + 1) = .ok delays[k]
  first : link.outcomes.findIdx? Outcome.isSettled = some delays.length
  answer : link.outcomes[delays.length]? = some (.answer r)

variable {c : Client} {wait : Nat → Except Fault Binary64} {giveUp : Json → Fault} {failed left : Nat}
  {outcomes : List Outcome} {link link' : Link} {path : Text} {request : Request} {r : Response} {delays : List Binary64}

/-- Only an answer is returned, and it settles the matter. -/
theorem eq_answer_of_verdict {o : Outcome} (h : verdict o = .settled (.ok r)) : o = .answer r := by
  cases o with
  | answer r' =>
    rw [verdict] at h
    split at h
    · cases h
    · cases h
      rfl
  | interruption => cases h
  | breakdown => cases h

/-- What a course returns is the first outcome that settles the matter, and comes in time. -/
theorem Course.answered (h : Course wait giveUp failed left outcomes delays (.ok r)) :
    outcomes.findIdx? Outcome.isSettled = some delays.length ∧ outcomes[delays.length]? = some (.answer r) ∧
      delays.length < left := by
  generalize hresult : (Except.ok r : Except Fault Response) = result at h
  induction h with
  | @settled _ _ outcomes _ h =>
    subst hresult
    have hsettled := isSettled_of_settled h
    cases outcomes with
    | nil => cases hsettled
    | cons o rest =>
      have hanswer : o = .answer r := eq_answer_of_verdict h
      subst hanswer
      exact ⟨List.findIdx?_cons.trans (if_pos hsettled), rfl, Nat.succ_pos _⟩
  | exhausted => cases hresult
  | unmeasured => cases hresult
  | @again _ _ outcomes _ _ _ _ h _ hrest ih =>
    obtain ⟨hfirst, hanswer, hlt⟩ := ih hresult
    cases outcomes with
    | nil => cases hfirst
    | cons o rest =>
      have hagain : ¬ o.isSettled = true := Bool.eq_false_iff.mp (isSettled_of_again h)
      refine ⟨?_, hanswer, Nat.succ_lt_succ hlt⟩
      rw [List.findIdx?_cons, if_neg hagain]
      exact congrArg _ hfirst

/-- The first outcome that settles the matter is what a course returns, if it comes in time and is an answer. -/
theorem course_of_answer (hmeasured : ∀ k (hk : k < delays.length), wait (failed + k + 1) = .ok delays[k])
    (hfirst : outcomes.findIdx? Outcome.isSettled = some delays.length)
    (hanswer : outcomes[delays.length]? = some (.answer r)) (hlt : delays.length < left) :
    Course wait giveUp failed left outcomes delays (.ok r) := by
  induction delays generalizing failed left outcomes with
  | nil =>
    obtain ⟨left, rfl⟩ := Nat.exists_eq_succ_of_ne_zero (Nat.ne_of_gt hlt)
    cases outcomes with
    | nil => cases hanswer
    | cons o rest =>
      obtain rfl : o = .answer r := Option.some.inj hanswer
      obtain ⟨_, hsettled, -⟩ := List.findIdx?_eq_some_iff_getElem.mp hfirst
      exact .settled (verdict_answer hsettled)
  | cons delay delays ih =>
    obtain ⟨left, rfl⟩ : ∃ n, left = n + 2 := ⟨left - 2, by rw [List.length_cons] at hlt; omega⟩
    cases outcomes with
    | nil => cases hanswer
    | cons o rest =>
      rw [List.findIdx?_cons] at hfirst
      split at hfirst
      · cases hfirst
      · rename_i hagain
        obtain ⟨seen, hseen⟩ := exists_again_of_not_settled (Bool.eq_false_iff.mpr hagain)
        obtain ⟨n, hn, hlength⟩ := Option.map_eq_some_iff.mp hfirst
        obtain rfl : n = delays.length := Nat.succ.inj hlength
        refine .again hseen (hmeasured 0 (Nat.succ_pos _)) (ih (fun k hk => ?_) hn hanswer (Nat.lt_of_succ_lt_succ hlt))
        have hindex : failed + 1 + k + 1 = failed + (k + 1) + 1 := by omega
        rw [hindex]
        exact hmeasured (k + 1) (Nat.succ_lt_succ hk)

/-- A request is sent only if it can be made and the client tries at all. -/
theorem send_eq_ok {request : Except Fault Request} (h : (c.send path request).run link = (.ok r, link')) :
    (∃ retries : Nat, c.retryCount = .ok (retries : Int)) ∧ ∃ made, request = .ok made := by
  rw [send] at h
  obtain ⟨n, hn, h⟩ := Outcome.run_lift_bind_eq_ok.mp h
  dsimp only at h
  split at h
  · cases h
  · obtain ⟨made, hmade, -⟩ := Outcome.run_lift_bind_eq_ok.mp h
    exact ⟨⟨n.toNat, by rw [hn, Int.toNat_of_nonneg (by omega)]⟩, made, hmade⟩

/-- What is returned for a request is the answer that is received. -/
theorem send_eq_ok_iff {request : Except Fault Request} :
    (c.send path request).run link = (.ok r, link') ↔
      ∃ made delays, request = .ok made ∧ c.Received link delays r ∧ link' = link.tried made delays := by
  constructor
  · intro h
    obtain ⟨⟨retries, hretries⟩, made, rfl⟩ := send_eq_ok h
    obtain ⟨delays, result, hcourse⟩ :=
      exists_course (c.waitAfter link) (c.exhausted path (retries + 1)) 0 retries link.outcomes
    have hrun := hcourse.run_send hretries made
    obtain ⟨rfl, rfl⟩ := Prod.mk.inj (h.symm.trans hrun)
    obtain ⟨hfirst, hanswer, hlt⟩ := hcourse.answered
    refine ⟨made, delays, rfl, ⟨⟨retries, hretries, Nat.le_of_lt_succ hlt⟩, fun k hk => ?_, hfirst, hanswer⟩, rfl⟩
    have hdelay := hcourse.measured k hk
    rwa [Nat.zero_add] at hdelay
  · intro h
    obtain ⟨made, delays, rfl, hreceived, rfl⟩ := h
    obtain ⟨retries, hretries, hle⟩ := hreceived.allowed
    have hcourse : Course (c.waitAfter link) (c.exhausted path (retries + 1)) 0 (retries + 1) link.outcomes delays
        (.ok r) := by
      refine course_of_answer (fun k hk => ?_) hreceived.first hreceived.answer (Nat.lt_succ_of_le hle)
      rw [Nat.zero_add]
      exact hreceived.measured k hk
    exact hcourse.run_send hretries made

/-- The content of an answer is read as a document unless the status is that of an error. -/
theorem document_eq_ok_iff {v : Json} : r.document request = .ok v ↔ r.isError = false ∧ r.json? = some v := by
  rw [Response.document]
  split
  · rename_i herror
    exact ⟨nofun, fun h => by rw [h.1] at herror; cases herror⟩
  · rename_i herror
    cases hjson : r.json? with
    | none => exact ⟨nofun, fun h => nomatch h.2⟩
    | some v' =>
      exact ⟨fun h => ⟨Bool.eq_false_iff.mpr herror, congrArg _ (Except.ok.inj h)⟩,
        fun h => congrArg _ (Option.some.inj h.2)⟩

/-- The document with which a request is answered is the content of the answer that is received. -/
theorem ask_eq_ok_iff {request : Except Fault Request} {v : Json} :
    (c.ask path request).run link = (.ok v, link') ↔
      ∃ made delays r, request = .ok made ∧ c.Received link delays r ∧ r.isError = false ∧ r.json? = some v ∧
        link' = link.tried made delays := by
  rw [ask, Outcome.run_bind_eq_ok]
  constructor
  · intro h
    obtain ⟨r, link₁, hsend, h⟩ := h
    obtain ⟨made, delays, rfl, hreceived, rfl⟩ := send_eq_ok_iff.mp hsend
    obtain ⟨hdocument, rfl⟩ := Prod.mk.inj h
    obtain ⟨herror, hjson⟩ := document_eq_ok_iff.mp hdocument
    exact ⟨made, delays, r, rfl, hreceived, herror, hjson, rfl⟩
  · intro h
    obtain ⟨made, delays, r, rfl, hreceived, herror, hjson, rfl⟩ := h
    refine ⟨r, _, send_eq_ok_iff.mpr ⟨made, delays, rfl, hreceived, rfl⟩, ?_⟩
    exact Prod.ext (document_eq_ok_iff.mpr ⟨herror, hjson⟩) rfl

/-- What a document holds, of the answer that is received. -/
theorem exists_ask_iff {α : Type} {request : Except Fault Request} {f : Json → Option α} {a : α} :
    (∃ body, f body = some a ∧ (c.ask path request).run link = (.ok body, link')) ↔
      ∃ made delays r, request = .ok made ∧ c.Received link delays r ∧ r.isError = false ∧
        (Json.ofBytes? r.content).bind f = some a ∧ link' = link.tried made delays := by
  constructor
  · intro h
    obtain ⟨body, hbody, hask⟩ := h
    obtain ⟨made, delays, r, hmade, hreceived, herror, hjson, hlink⟩ := ask_eq_ok_iff.mp hask
    exact ⟨made, delays, r, hmade, hreceived, herror, Option.bind_eq_some_iff.mpr ⟨body, hjson, hbody⟩, hlink⟩
  · intro h
    obtain ⟨made, delays, r, hmade, hreceived, herror, hread, hlink⟩ := h
    obtain ⟨body, hjson, hbody⟩ := Option.bind_eq_some_iff.mp hread
    exact ⟨body, hbody, ask_eq_ok_iff.mpr ⟨made, delays, r, hmade, hreceived, herror, hjson, hlink⟩⟩

/-- The request for the state of an account. -/
def accountRequest (c : Client) (t : Text) : Except Fault Request :=
  (c.getRequest (accountPath t)).map fun r => { r with url := r.url.withItem "proof" "0" }

/-- An address is given as a text. -/
theorem requireText_eq_ok_iff {address : Datum} {t : Text} :
    Address.requireText address = .ok t ↔ address = .text t := by
  cases address with
  | text t' => exact ⟨fun h => congrArg _ (Except.ok.inj h), fun h => congrArg _ (Datum.text.inj h)⟩
  | absent | flag | integer | real | bytes => exact ⟨nofun, nofun⟩

/-- The state of an account is given if its address is valid and the document of the answer has a nonce. -/
theorem accountInfo_eq_ok_iff {address : Datum} {v : Json} :
    (c.accountInfo address).run link = (.ok v, link') ↔
      ∃ t parts, address = .text t ∧ Address.parseParts t = .ok parts ∧ (v.get? "nonce").isSome = true ∧
        (c.ask (accountPath t) (c.accountRequest t)).run link = (.ok v, link') := by
  rw [accountInfo, Outcome.run_lift_bind_eq_ok]
  constructor
  · intro h
    obtain ⟨t, ht, h⟩ := h
    obtain ⟨parts, hparts, h⟩ := Outcome.run_lift_bind_eq_ok.mp h
    obtain ⟨body, link₁, hask, h⟩ := Outcome.run_bind_eq_ok.mp h
    split at h
    · rename_i hnonce
      cases h
      exact ⟨t, parts, requireText_eq_ok_iff.mp ht, hparts, hnonce, hask⟩
    · cases h
  · intro h
    obtain ⟨t, parts, rfl, hparts, hnonce, hask⟩ := h
    refine ⟨t, rfl, Outcome.run_lift_bind_eq_ok.mpr ⟨parts, hparts, Outcome.run_bind_eq_ok.mpr ⟨v, link', hask, ?_⟩⟩⟩
    rw [if_pos hnonce]
    rfl

/-- The nonce that the document of an account holds, in any form in which it yields a number. -/
def nonceOf? (body : Json) : Option Int :=
  ((body.get? "nonce").bind Json.toDatum?).bind fun d => d.truncate.toOption

/-- A nonce is given if the document of the answer holds one. -/
theorem nonce_eq_ok_iff {address : Datum} {n : Int} :
    (c.nonce address).run link = (.ok n, link') ↔
      ∃ t parts, address = .text t ∧ Address.parseParts t = .ok parts ∧
        ∃ body, nonceOf? body = some n ∧
          (c.ask (accountPath t) (c.accountRequest t)).run link = (.ok body, link') := by
  rw [nonce, Outcome.run_bind_eq_ok]
  constructor
  · intro h
    obtain ⟨body, link₁, hinfo, h⟩ := h
    obtain ⟨t, parts, rfl, hparts, -, hask⟩ := accountInfo_eq_ok_iff.mp hinfo
    split at h
    · rename_i d hd
      obtain ⟨hvalue, rfl⟩ := Prod.mk.inj h
      refine ⟨t, parts, rfl, hparts, body, ?_, hask⟩
      rw [nonceOf?, hd]
      exact Outcome.toOption_eq_some_iff.mpr hvalue
    · cases h
  · intro h
    obtain ⟨t, parts, rfl, hparts, body, hn, hask⟩ := h
    obtain ⟨d, hd, hvalue⟩ := Option.bind_eq_some_iff.mp hn
    obtain ⟨v, hv, -⟩ := Option.bind_eq_some_iff.mp hd
    refine ⟨body, link', accountInfo_eq_ok_iff.mpr ⟨t, parts, rfl, hparts, ?_, hask⟩, ?_⟩
    · rw [hv]
      rfl
    · rw [hd]
      exact Prod.ext (Outcome.toOption_eq_some_iff.mp hvalue) rfl

/-- Bytes are taken unless the status is that of an error. -/
theorem broadcast_eq_ok_iff {b : Bytes} {id : Text} :
    (c.broadcast b).run link = (.ok id, link') ↔
      ∃ made delays r, c.octetsRequest transactionsPath b = .ok made ∧ c.Received link delays r ∧ r.isError = false ∧
        some ((Utf8.decodeLenient r.content).strip.trim (· == 34)) = some id ∧ link' = link.tried made delays := by
  rw [broadcast, Outcome.run_bind_eq_ok]
  constructor
  · intro h
    obtain ⟨r, link₁, hsend, h⟩ := h
    obtain ⟨made, delays, hmade, hreceived, rfl⟩ := send_eq_ok_iff.mp hsend
    split at h
    · rw [hmade] at h
      cases h
    · rename_i herror
      cases h
      exact ⟨made, delays, r, hmade, hreceived, Bool.eq_false_iff.mpr herror, rfl, rfl⟩
  · intro h
    obtain ⟨made, delays, r, hmade, hreceived, herror, hid, rfl⟩ := h
    obtain rfl := Option.some.inj hid
    refine ⟨r, _, send_eq_ok_iff.mpr ⟨made, delays, hmade, hreceived, rfl⟩, ?_⟩
    rw [if_neg (Bool.eq_false_iff.mp herror)]
    rfl

/-- The rate that a document is. -/
def rateOf? : Json → Option Int
  | .int n => some n
  | _ => none

/-- A fee rate is given if the document of the answer is one. -/
theorem feeRate_eq_ok_iff {n : Int} :
    c.feeRate.run link = (.ok n, link') ↔
      ∃ body, rateOf? body = some n ∧
        (c.ask feeRatePath (c.getRequest feeRatePath)).run link = (.ok body, link') := by
  rw [feeRate, Outcome.run_bind_eq_ok]
  constructor
  · intro h
    obtain ⟨body, link₁, hask, h⟩ := h
    split at h
    · cases h
      exact ⟨_, rfl, hask⟩
    · cases h
  · intro h
    obtain ⟨body, hn, hask⟩ := h
    cases body with
    | int m => cases hn; exact ⟨_, link', hask, rfl⟩
    | null | bool | real | text | array | object => cases hn

/-- The document with which a function's evaluation is asked for. -/
def callDocument (address : Datum) (arguments : List (Arg Value)) (sender : Datum) : Except Fault Json := do
  let sender ← (if sender.isVacant then address else sender).toJson
  let encoded ← (arguments.mapM Value.encodeArg : Except Fault (List Bytes))
  return .object [("sender", sender), ("arguments", .array (encoded.map fun b => .text (Hex.prefixed b)))]

/-- The value that the document of an answer holds, if the evaluation went well. -/
def valueOf? (path : Text) : Json → Option Value
  | .object members =>
    if (((Json.object members).get? "okay").getD .null).isVacant then none
    else (resultOf path (.object members)).toOption
  | _ => none

/-- A value is given if the document of the answer holds one. -/
theorem callReadOnly_eq_ok_iff {address contract function : Datum} {arguments : List (Arg Value)} {sender : Datum}
    {v : Value} :
    (c.callReadOnly address contract function arguments sender).run link = (.ok v, link') ↔
      ∃ document, callDocument address arguments sender = .ok document ∧
        ∃ body, valueOf? (functionPath address contract function) body = some v ∧
          (c.ask (functionPath address contract function)
            (c.documentRequest (functionPath address contract function) document)).run link = (.ok body, link') := by
  rw [callReadOnly, callDocument]
  constructor
  · intro h
    obtain ⟨given, hgiven, h⟩ := Outcome.run_lift_bind_eq_ok.mp h
    obtain ⟨encoded, hencoded, h⟩ := Outcome.run_lift_bind_eq_ok.mp h
    obtain ⟨body, link₁, hask, h⟩ := Outcome.run_bind_eq_ok.mp h
    refine ⟨_, by rw [hgiven, hencoded]; rfl, body, ?_⟩
    split at h
    · rw [valueOf?]
      split at h
      · cases h
      · rename_i hokay
        obtain ⟨hvalue, rfl⟩ := Prod.mk.inj h
        rw [if_neg hokay]
        exact ⟨Outcome.toOption_eq_some_iff.mpr hvalue, hask⟩
    · cases h
  · intro h
    obtain ⟨document, hdocument, body, hvalue, hask⟩ := h
    obtain ⟨given, hgiven, hdocument⟩ := Outcome.bind_eq_ok.mp hdocument
    obtain ⟨encoded, hencoded, hdocument⟩ := Outcome.bind_eq_ok.mp hdocument
    cases hdocument
    refine Outcome.run_lift_bind_eq_ok.mpr ⟨given, hgiven, Outcome.run_lift_bind_eq_ok.mpr ⟨encoded, hencoded, ?_⟩⟩
    refine Outcome.run_bind_eq_ok.mpr ⟨body, link', hask, ?_⟩
    rw [valueOf?.eq_def] at hvalue
    split at hvalue
    · split at hvalue
      · cases hvalue
      · rename_i hokay
        dsimp only
        rw [if_neg hokay]
        exact Prod.ext (Outcome.toOption_eq_some_iff.mp hvalue) rfl
    · cases hvalue

/-- The questions that a node is asked. -/
inductive Question where
  /-- The nonce of an account. -/
  | nonce (address : Datum)
  /-- The fee rate. -/
  | feeRate
  /-- Bytes are handed in. -/
  | broadcast (b : Bytes)
  /-- A transaction is handed in. -/
  | broadcastTransaction (t : Transaction)
  /-- A function that only reads is evaluated. -/
  | callReadOnly (address contract function : Datum) (arguments : List (Arg Value)) (sender : Datum)

/-- What a question has for its reply. -/
def Question.Reply : Question → Type
  | nonce _ | feeRate => Int
  | broadcast _ | broadcastTransaction _ => Text
  | callReadOnly .. => Value

/-- The reply to a question. -/
def reply (c : Client) : (q : Question) → Online q.Reply
  | .nonce address => c.nonce address
  | .feeRate => c.feeRate
  | .broadcast b => c.broadcast b
  | .broadcastTransaction t => c.broadcastTransaction t
  | .callReadOnly address contract function arguments sender =>
    c.callReadOnly address contract function arguments sender

/-- The request that a question becomes. -/
def requestFor (c : Client) : Question → Except Fault Request
  | .nonce address => do
    let t ← Address.requireText address
    let _ ← Address.parseParts t
    c.accountRequest t
  | .feeRate => c.getRequest feeRatePath
  | .broadcast b => c.octetsRequest transactionsPath b
  | .broadcastTransaction t => do c.octetsRequest transactionsPath (← (Transaction.serialize.run t).1)
  | .callReadOnly address contract function arguments sender => do
    c.documentRequest (functionPath address contract function) (← callDocument address arguments sender)

/-- The reply that the content of an answer holds. -/
def Question.read? : (q : Question) → Bytes → Option q.Reply
  | nonce _, b => (Json.ofBytes? b).bind nonceOf?
  | feeRate, b => (Json.ofBytes? b).bind rateOf?
  | broadcast _, b | broadcastTransaction _, b => some ((Utf8.decodeLenient b).strip.trim (· == 34))
  | callReadOnly address contract function _ _, b =>
    (Json.ofBytes? b).bind (valueOf? (functionPath address contract function))

/-- A question has a reply if the request can be made, an answer is received whose status is not that of an error, and
its content holds the reply. -/
theorem reply_eq_ok_iff (c : Client) (q : Question) (link link' : Link) (v : q.Reply) :
    (c.reply q).run link = (.ok v, link') ↔
      ∃ request delays r, c.requestFor q = .ok request ∧ c.Received link delays r ∧ r.status < 400 ∧
        q.read? r.content = some v ∧ link' = link.tried request delays := by
  have hstatus (r : Response) : r.isError = false ↔ r.status < 400 := decide_eq_false_iff_not.trans Nat.not_le
  simp only [← hstatus]
  cases q with
  | nonce address =>
    refine nonce_eq_ok_iff.trans ⟨fun h => ?_, fun h => ?_⟩
    · obtain ⟨t, parts, rfl, hparts, hasked⟩ := h
      obtain ⟨request, delays, r, hrequest, hreply⟩ := exists_ask_iff.mp hasked
      exact ⟨request, delays, r,
        Outcome.bind_eq_ok.mpr ⟨t, rfl, Outcome.bind_eq_ok.mpr ⟨parts, hparts, hrequest⟩⟩, hreply⟩
    · obtain ⟨request, delays, r, hrequest, hreply⟩ := h
      obtain ⟨t, ht, hrequest⟩ := Outcome.bind_eq_ok.mp hrequest
      obtain ⟨parts, hparts, hrequest⟩ := Outcome.bind_eq_ok.mp hrequest
      exact ⟨t, parts, requireText_eq_ok_iff.mp ht, hparts, exists_ask_iff.mpr ⟨request, delays, r, hrequest, hreply⟩⟩
  | feeRate => exact feeRate_eq_ok_iff.trans exists_ask_iff
  | broadcast b => exact broadcast_eq_ok_iff
  | broadcastTransaction t =>
    refine Outcome.run_lift_bind_eq_ok.trans ⟨fun h => ?_, fun h => ?_⟩
    · obtain ⟨b, hb, h⟩ := h
      obtain ⟨request, delays, r, hrequest, hreply⟩ := broadcast_eq_ok_iff.mp h
      exact ⟨request, delays, r, Outcome.bind_eq_ok.mpr ⟨b, hb, hrequest⟩, hreply⟩
    · obtain ⟨request, delays, r, hrequest, hreply⟩ := h
      obtain ⟨b, hb, hrequest⟩ := Outcome.bind_eq_ok.mp hrequest
      exact ⟨b, hb, broadcast_eq_ok_iff.mpr ⟨request, delays, r, hrequest, hreply⟩⟩
  | callReadOnly address contract function arguments sender =>
    refine callReadOnly_eq_ok_iff.trans ⟨fun h => ?_, fun h => ?_⟩
    · obtain ⟨document, hdocument, hasked⟩ := h
      obtain ⟨request, delays, r, hrequest, hreply⟩ := exists_ask_iff.mp hasked
      exact ⟨request, delays, r, Outcome.bind_eq_ok.mpr ⟨document, hdocument, hrequest⟩, hreply⟩
    · obtain ⟨request, delays, r, hrequest, hreply⟩ := h
      obtain ⟨document, hdocument, hrequest⟩ := Outcome.bind_eq_ok.mp hrequest
      exact ⟨document, hdocument, exists_ask_iff.mpr ⟨request, delays, r, hrequest, hreply⟩⟩

/-- A link on which a request is answered from elsewhere. -/
def awayLink : Link := { outcomes := [.answer ⟨302, []⟩] }

/-- Bytes that are handed in are taken to have an empty identifier if the client is sent elsewhere. So it is not so that
there is a reply only to an answer that reports success. -/
theorem not_forall_reply_success :
    ((usualClient.reply (.broadcast [0])).run awayLink).1 = .ok ([] : Text) ∧
      ¬ ∀ (c : Client) (q : Question) (link link' : Link) (v : q.Reply), (c.reply q).run link = (.ok v, link') →
        ∃ k r, link.outcomes[k]? = some (.answer r) ∧ link'.outcomes = link.outcomes.drop (k + 1) ∧
          200 ≤ r.status ∧ r.status ≤ 299 := by
  have hreply : ((usualClient.reply (.broadcast [0])).run awayLink).1 = .ok ([] : Text) := rfl
  refine ⟨hreply, fun h => ?_⟩
  obtain ⟨k, r, hr, -, -, hstatus⟩ := h usualClient (.broadcast [0]) awayLink _ [] (Prod.ext hreply rfl)
  obtain ⟨hk, hr⟩ := List.getElem?_eq_some_iff.mp hr
  obtain rfl : k = 0 := Nat.lt_one_iff.mp hk
  cases hr
  exact absurd hstatus (by decide)

end Client

end StacksWallet
