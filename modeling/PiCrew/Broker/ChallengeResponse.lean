/-
**What the signature of a response is worth.**

`respond.challenge` and `respond.append`, in every run of the broker with any number of connections. A
nonce is 32 random bytes, drawn anew each time, and no signature verifies of a text that the key of the
dispatcher has not signed:

* `accounted_step` — the nonces that are out, in flight and spent, in one step;
* `challenge_response_safe` — a row that is appended was signed with a nonce of its connection for its
  run, each nonce appends at most one row, and what is signed determines the nonce and the fields;
* `run_is_not_signed` — it determines neither the run nor the defaults of the row.
-/

import PiCrew.Broker.Respond

set_option linter.unusedSectionVars false

namespace PiCrew.Broker.Respond

open JsonText Mailbox

section

variable {γ ν κ : Type}

def isBase64Url (unit : UInt16) : Bool :=
  (0x30 ≤ unit && unit ≤ 0x39) || (0x41 ≤ unit && unit ≤ 0x5A) || (0x61 ≤ unit && unit ≤ 0x7A)
    || unit = 0x5F || unit = 0x2D

/-- **A nonce is drawn anew, and no signature is forged.** -/
def Trusted (dispatcherVerifyKey : Option κ) (verify : κ → Text → Text → Bool)
    (broker : CrewBroker γ) : Action γ ν → Prop
  | .challenge _ _ nonce _ =>
    (∀ unit ∈ nonce, isBase64Url unit = true) ∧ nonce ∉ broker.issued.map (·.nonce)
  | .append _ params _ _ =>
    ∀ key ∈ dispatcherVerifyKey, ∀ parsed ∈ parseRespondAppendParams params,
      CrewBroker.verifyDispatcherSignature verify key parsed = true →
        toWellFormed (respondAppendSignInput parsed.nonce parsed.toRespondCommonParams)
          ∈ broker.signed.map Signed.text
  | _ => True

/-- **A row was signed**: the key of the dispatcher has signed its fields with a nonce that was given out
on its connection for its run. The row has the defaults of what was not among them. -/
def SignedRow (redactSecrets : ResponseRow → ResponseRow) (broker : CrewBroker γ)
    (appended : Appended γ) : Prop :=
  ∃ nonce params messageId, appended.nonce = some nonce ∧
    { conn := appended.conn, runId := appended.runId, nonce := nonce } ∈ broker.issued ∧
    Signed.response nonce params ∈ broker.signed ∧
    appended.row = redactSecrets (responseRow .challengeResponse appended.runId messageId params)

/-- **Every row that `respond.append` appends was signed, and no two with one nonce.** -/
structure ChallengeResponseSafe (redactSecrets : ResponseRow → ResponseRow)
    (broker : CrewBroker γ) : Prop where
  signed : ∀ appended ∈ broker.rows, appended.auth = .challengeResponse →
    SignedRow redactSecrets broker appended
  once : (broker.rows.filterMap (·.nonce)).Nodup

end

theorem low_of_isBase64Url {unit : UInt16} (base : isBase64Url unit = true) : unit < 0xD800 := by
  simp only [isBase64Url, Bool.or_eq_true_iff, Bool.and_eq_true_iff, decide_eq_true_eq] at base
  rcases base with (((⟨-, high⟩ | ⟨-, high⟩) | ⟨-, high⟩) | rfl) | rfl
  · exact UInt16.lt_of_le_of_lt high (by decide)
  · exact UInt16.lt_of_le_of_lt high (by decide)
  · exact UInt16.lt_of_le_of_lt high (by decide)
  · decide
  · decide

theorem toWellFormed_signInput (nonce : Text) (params : RespondCommonParams) :
    toWellFormed (respondAppendSignInput nonce params)
      = respondAppendSignInput (toWellFormed nonce) params :=
  toWellFormed_append nonce (paired_stringify _)

theorem openBracket_mem_signInput (nonce : Text) (params : RespondCommonParams) :
    openBracket ∈ respondAppendSignInput nonce params := by
  refine List.mem_append_right _ ?_
  rw [canonicalRespondAppendPayload, signedItems, stringify]
  exact List.mem_cons_self

theorem response_of_text {signed : List Signed} {nonce : Text} {params : RespondCommonParams}
    (base : ∀ unit ∈ nonce, isBase64Url unit = true)
    (member : toWellFormed (respondAppendSignInput nonce params) ∈ signed.map Signed.text) :
    ∃ others, Signed.response nonce others ∈ signed ∧ others.withRun params.runId = params := by
  have low : ∀ unit ∈ nonce, unit < 0xD800 := fun unit here => low_of_isBase64Url (base unit here)
  have kept : toWellFormed nonce = nonce := toWellFormed_of_paired (paired_of_low low)
  rw [toWellFormed_signInput, kept] at member
  obtain ⟨what, here, text⟩ := List.mem_map.mp member
  cases what with
  | digest digits =>
    -- A digest has no bracket.
    have bracket := openBracket_mem_signInput nonce params
    have apart : ∀ digit : Fin 16, hexDigit digit.val ≠ openBracket := by decide
    rw [← text] at bracket
    obtain ⟨digit, -, equal⟩ := List.mem_map.mp bracket
    exact absurd equal (apart digit)
  | response other others =>
    have text : toWellFormed (respondAppendSignInput other others)
        = respondAppendSignInput nonce params := text
    rw [toWellFormed_signInput] at text
    obtain ⟨nonces, fields⟩ := (signInput_eq_iff _ _ _ _).mp text
    have same : toWellFormed other = other := toWellFormed_low (by rw [nonces]; exact low)
    rw [same] at nonces
    subst nonces
    exact ⟨others, here, fields⟩

section

variable {γ ν κ : Type}

/-- The nonce that a request in flight may still append a row with. -/
def pendingNonce (request : Request γ) : Option Text :=
  match request.phase with
  | .written _ _ => none
  | _ => request.nonce

def spent (requests : List (Request γ)) (rows : List (Appended γ)) : List Text :=
  requests.filterMap pendingNonce ++ rows.filterMap (·.nonce)

/-- **A request was signed**, like its row. -/
def SignedRequest (issued : List (Issued γ)) (signed : List Signed) (request : Request γ) : Prop :=
  ∃ nonce params, request.nonce = some nonce ∧
    { conn := request.conn, runId := request.params.runId, nonce := nonce } ∈ issued ∧
    Signed.response nonce params ∈ signed ∧ params.withRun request.params.runId = request.params

structure Accounted (redactSecrets : ResponseRow → ResponseRow) (broker : CrewBroker γ) : Prop where
  unique : (broker.issued.map (·.nonce)).Nodup
  base : ∀ given ∈ broker.issued, ∀ unit ∈ given.nonce, isBase64Url unit = true
  live : ∀ conn record, broker.respondChallenges conn = some record →
    { conn := conn, runId := record.runId, nonce := record.nonce } ∈ broker.issued ∧
      record.nonce ∉ spent broker.requests broker.rows
  known : ∀ nonce ∈ spent broker.requests broker.rows, nonce ∈ broker.issued.map (·.nonce)
  once : (spent broker.requests broker.rows).Nodup
  requested : ∀ request ∈ broker.requests, request.auth = .challengeResponse →
    SignedRequest broker.issued broker.signed request
  appended : ∀ appended ∈ broker.rows, appended.auth = .challengeResponse →
    SignedRow redactSecrets broker appended

variable {redactSecrets : ResponseRow → ResponseRow} {broker after : CrewBroker γ}

theorem SignedRequest.mono {issued more : List (Issued γ)} {signed others : List Signed}
    {request : Request γ} (held : SignedRequest issued signed request) (kept : issued ⊆ more)
    (given : signed ⊆ others) : SignedRequest more others request := by
  obtain ⟨nonce, params, has, out, sign, fields⟩ := held
  exact ⟨nonce, params, has, kept out, given sign, fields⟩

theorem SignedRow.mono {appended : Appended γ} (held : SignedRow redactSecrets broker appended)
    (kept : broker.issued ⊆ after.issued) (given : broker.signed ⊆ after.signed) :
    SignedRow redactSecrets after appended := by
  obtain ⟨nonce, params, messageId, has, out, sign, row⟩ := held
  exact ⟨nonce, params, messageId, has, kept out, given sign, row⟩

theorem SignedRequest.of_continues {issued : List (Issued γ)} {signed : List Signed}
    {request other : Request γ} (held : SignedRequest issued signed other)
    (same : Continues request other) : SignedRequest issued signed request := by
  obtain ⟨nonce, params, has, out, sign, fields⟩ := held
  rw [same.nonce] at has
  rw [same.conn, same.params] at out
  rw [same.params] at fields
  exact ⟨nonce, params, has, out, sign, fields⟩

section

variable (account : Accounted redactSecrets broker)

include account

theorem Accounted.weaken (live : ∀ conn record, after.respondChallenges conn = some record →
      broker.respondChallenges conn = some record)
    (pending : (after.requests.filterMap pendingNonce).Sublist
      (broker.requests.filterMap pendingNonce))
    (requests : ∀ request ∈ after.requests, request.auth = .challengeResponse →
      ∃ other ∈ broker.requests, Continues request other)
    (issued : after.issued = broker.issued) (signed : broker.signed ⊆ after.signed)
    (rows : after.rows = broker.rows) : Accounted redactSecrets after := by
  have fewer : (spent after.requests after.rows).Sublist (spent broker.requests broker.rows) := by
    rw [spent, spent, rows]
    exact pending.append (List.Sublist.refl _)
  refine ⟨?_, ?_, ?_, ?_, account.once.sublist fewer, ?_, ?_⟩
  · rw [issued]
    exact account.unique
  · rw [issued]
    exact account.base
  · intro conn record here
    obtain ⟨out, fresh⟩ := account.live conn record (live conn record here)
    rw [issued]
    exact ⟨out, fun member => fresh (fewer.subset member)⟩
  · intro nonce member
    rw [issued]
    exact account.known nonce (fewer.subset member)
  · intro request member auth
    obtain ⟨other, there, same⟩ := requests request member auth
    have held := account.requested other there (same.auth.trans auth)
    rw [issued]
    exact (held.of_continues same).mono (List.Subset.refl _) signed
  · intro appended member auth
    rw [rows] at member
    refine (account.appended appended member auth).mono ?_ signed
    rw [issued]
    exact List.Subset.refl _

/-- The account depends on what `Alike` brokers have in common. -/
theorem Accounted.of_alike (alike : Alike broker after) :
    Accounted redactSecrets after := by
  refine account.weaken ?_ ?_ ?_ alike.issued ?_ alike.rows
  · intro conn record here
    rw [← alike.challenges]
    exact here
  · rw [alike.requests]
  · intro request member _
    rw [alike.requests] at member
    exact ⟨request, member, rfl, rfl, rfl, rfl⟩
  · rw [alike.signed]
    exact List.Subset.refl _

theorem Accounted.finish (index : Nat) : Accounted redactSecrets (broker.finish index) := by
  have fewer : (broker.requests.eraseIdx index).Sublist broker.requests :=
    List.eraseIdx_sublist broker.requests index
  exact account.weaken (fun _ _ here => here) (fewer.filterMap _)
    (fun request member _ => ⟨request, fewer.subset member, rfl, rfl, rfl, rfl⟩)
    rfl (List.Subset.refl _) rfl

theorem Accounted.proceed {index : Nat}
    {request next : Request γ} (found : broker.requests[index]? = some request)
    (same : Continues next request)
    (pending : pendingNonce next = none ∨ pendingNonce next = pendingNonce request) :
    Accounted redactSecrets (broker.proceed index next) := by
  obtain ⟨before, behind, whole, replaced, -⟩ := split_at found
  have after : (broker.proceed index next).requests = before ++ next :: behind := replaced next
  refine account.weaken (fun _ _ here => here) ?_ ?_ rfl (List.Subset.refl _) rfl
  · rw [after, whole, List.filterMap_append, List.filterMap_append, List.filterMap_cons,
      List.filterMap_cons]
    refine (List.Sublist.refl _).append ?_
    rcases pending with none | kept
    · rw [none]
      dsimp only
      split
      · exact List.Sublist.refl _
      · exact List.sublist_cons_self _ _
    · rw [kept]
  · intro other member _
    rw [after] at member
    rcases List.mem_append.mp member with early | here
    · exact ⟨other, whole ▸ List.mem_append_left _ early, rfl, rfl, rfl, rfl⟩
    · rcases List.mem_cons.mp here with rfl | late
      · exact ⟨request, List.mem_of_getElem? found, same⟩
      · exact ⟨other, whole ▸ List.mem_append_right _ (List.mem_cons_of_mem _ late), rfl, rfl, rfl,
          rfl⟩

end

variable [DecidableEq γ]

section

variable (account : Accounted redactSecrets broker)

include account

theorem Accounted.burn (conn : γ) : Accounted redactSecrets (broker.burn conn) := by
  refine account.weaken ?_ (List.Sublist.refl _)
    (fun request member _ => ⟨request, member, rfl, rfl, rfl, rfl⟩) rfl (List.Subset.refl _) rfl
  intro other record here
  have here : Function.update broker.respondChallenges conn none other = some record := here
  rw [Function.update_apply] at here
  split_ifs at here
  exact here

theorem Accounted.issue (conn : γ)
    {record : RespondChallengeRecord} (base : ∀ unit ∈ record.nonce, isBase64Url unit = true)
    (fresh : record.nonce ∉ broker.issued.map (·.nonce)) :
    Accounted redactSecrets (broker.issue conn record) := by
  have issued : (broker.issue conn record).issued
      = broker.issued ++ [{ conn := conn, runId := record.runId, nonce := record.nonce }] := rfl
  have kept : broker.issued ⊆ (broker.issue conn record).issued := List.subset_append_left _ _
  refine ⟨?_, ?_, ?_, ?_, account.once, ?_, ?_⟩
  · rw [issued, List.map_append]
    exact account.unique.append (List.nodup_singleton _) (List.disjoint_singleton.mpr fresh)
  · rw [issued]
    exact List.forall_mem_append.mpr ⟨account.base, List.forall_mem_singleton.mpr base⟩
  · intro other live here
    have here : Function.update broker.respondChallenges conn (some record) other = some live := here
    rw [Function.update_apply] at here
    split_ifs at here with same
    · obtain rfl := Option.some.inj here
      rw [issued, same]
      exact ⟨List.mem_append_right _ List.mem_cons_self, fun member =>
        fresh (account.known _ member)⟩
    · obtain ⟨out, unspent⟩ := account.live other live here
      exact ⟨kept out, unspent⟩
  · intro nonce member
    exact List.map_subset _ kept (account.known nonce member)
  · intro request member auth
    exact (account.requested request member auth).mono kept (List.Subset.refl _)
  · intro appended member auth
    exact (account.appended appended member auth).mono kept (List.Subset.refl _)

theorem Accounted.conn_of_nonce {first second : Issued γ}
    (here : first ∈ broker.issued) (there : second ∈ broker.issued)
    (same : first.nonce = second.nonce) : first = second :=
  List.inj_on_of_nodup_map account.unique here there same

/-- **A signed response that is let in**: its nonce goes from the connection to the request. -/
theorem Accounted.enter {dispatcherVerifyKey : Option κ} {verify : κ → Text → Text → Bool} {conn : γ}
    {params : Value ν} {now : Nat} {parsed : RespondAppendParams}
    (admitted : Admitted broker dispatcherVerifyKey verify conn params now parsed) (stamp : Text)
    (trusted : Trusted dispatcherVerifyKey verify broker (.append conn params now stamp)) :
    Accounted redactSecrets ((broker.burn conn).suspend (requestOf conn parsed stamp)) := by
  obtain ⟨record, live, -, nonce, run⟩ := admitted.challenge
  obtain ⟨key, bound, verified⟩ := admitted.verified
  obtain ⟨out, unspent⟩ := account.live conn record live
  have burned := account.burn conn
  have member := trusted key bound parsed admitted.parsed verified
  have base : ∀ unit ∈ parsed.nonce, isBase64Url unit = true := nonce ▸ account.base _ out
  obtain ⟨others, sign, fields⟩ := response_of_text base member
  have spends : (spent (broker.requests ++ [requestOf conn parsed stamp]) broker.rows).Perm
      (parsed.nonce :: spent broker.requests broker.rows) := by
    rw [spent, spent, List.filterMap_append, List.append_assoc]
    exact List.perm_middle
  rw [nonce] at out unspent
  rw [run] at out
  refine ⟨burned.unique, burned.base, ?_, ?_, ?_, ?_, burned.appended⟩
  · intro other held here
    have kept : broker.respondChallenges other = some held ∧ other ≠ conn := by
      have here : Function.update broker.respondChallenges conn none other = some held := here
      rw [Function.update_apply] at here
      split_ifs at here with same
      exact ⟨here, same⟩
    obtain ⟨given, fresh⟩ := account.live other held kept.1
    refine ⟨given, fun member => ?_⟩
    rcases List.mem_cons.mp (spends.subset member) with same | member
    · exact kept.2 (congrArg Issued.conn (account.conn_of_nonce given out same))
    · exact fresh member
  · intro other member
    rcases List.mem_cons.mp (spends.subset member) with rfl | member
    · exact List.mem_map_of_mem out
    · exact account.known other member
  · exact spends.nodup_iff.mpr (List.nodup_cons.mpr ⟨unspent, account.once⟩)
  · refine List.forall_mem_append.mpr ⟨account.requested, List.forall_mem_singleton.mpr fun _ => ?_⟩
    exact ⟨parsed.nonce, others, rfl, out, sign, fields⟩

end

omit [DecidableEq γ] in
theorem SignedRequest.row {request : Request γ} (held : SignedRequest broker.issued broker.signed request)
    (auth : request.auth = .challengeResponse) :
    SignedRow redactSecrets broker (CrewBroker.appendedOf redactSecrets request) := by
  obtain ⟨nonce, params, has, out, sign, fields⟩ := held
  refine ⟨nonce, params, messageIdOf request.auth request.stamp, has, out, sign, ?_⟩
  show redactSecrets (responseRow request.auth _ _ request.params) = _
  rw [auth, ← fields]
  rfl

/-- **A row that is added**: the nonce goes from the request to the row. -/
theorem Accounted.append (account : Accounted redactSecrets broker) {index : Nat}
    {request : Request γ} (found : broker.requests[index]? = some request)
    (appending : request.phase = .appending) (messageId : Text) :
    Accounted redactSecrets ((broker.appendRow redactSecrets request).proceed index
      { request with phase := .written messageId false }) := by
  obtain ⟨before, behind, whole, replaced, -⟩ := split_at found
  let next : Request γ := { request with phase := .written messageId false }
  let row := CrewBroker.appendedOf redactSecrets request
  have requests : broker.requests.set index next = before ++ next :: behind := replaced next
  have member := List.mem_of_getElem? found
  have keeps : pendingNonce request = request.nonce := by rw [pendingNonce, appending]
  have spends : (spent (broker.requests.set index next) (broker.rows ++ [row])).Perm
      (spent broker.requests broker.rows) := by
    have gone : pendingNonce next = none := rfl
    have here : row.nonce = request.nonce := rfl
    rw [requests, whole, spent, spent]
    simp only [List.filterMap_append, List.filterMap_cons, List.filterMap_nil, gone, keeps, here]
    cases request.nonce with
    | none => exact List.Perm.of_eq (by rw [List.append_nil])
    | some nonce =>
      dsimp only
      rw [List.append_assoc, List.append_assoc, ← List.append_assoc (List.filterMap _ behind)]
      exact (List.perm_append_singleton nonce _).append_left _
  have requested : ∀ other ∈ broker.requests.set index next, other.auth = .challengeResponse →
      SignedRequest broker.issued broker.signed other := by
    intro other there auth
    rw [requests] at there
    rcases List.mem_append.mp there with early | there
    · exact account.requested other (whole ▸ List.mem_append_left _ early) auth
    · rcases List.mem_cons.mp there with rfl | late
      · exact (account.requested request member auth).of_continues ⟨rfl, rfl, rfl, rfl⟩
      · exact account.requested other
          (whole ▸ List.mem_append_right _ (List.mem_cons_of_mem _ late)) auth
  refine ⟨account.unique, account.base, ?_, ?_, spends.nodup_iff.mpr account.once, requested, ?_⟩
  · intro conn record here
    obtain ⟨out, fresh⟩ := account.live conn record here
    exact ⟨out, fun there => fresh (spends.subset there)⟩
  · exact fun nonce there => account.known nonce (spends.subset there)
  · refine List.forall_mem_append.mpr ⟨account.appended, List.forall_mem_singleton.mpr fun auth => ?_⟩
    exact (account.requested request member auth).row auth

end

section

variable {γ ν κ : Type} [DecidableEq γ] {dispatcherVerifyKey : Option κ}
  {verify : κ → Text → Text → Bool} {redactSecrets : ResponseRow → ResponseRow}
  {broker : CrewBroker γ}

/-- **One step keeps the account.** -/
theorem accounted_step (account : Accounted redactSecrets broker) (action : Action γ ν)
    (trusted : Trusted dispatcherVerifyKey verify broker action) :
    Accounted redactSecrets (broker.step dispatcherVerifyKey verify redactSecrets action) := by
  have effect := step_effect broker dispatcherVerifyKey verify redactSecrets action
  generalize broker.step dispatcherVerifyKey verify redactSecrets action = after at effect ⊢
  cases effect with
  | idle alike => exact account.of_alike alike
  | issue alike =>
    obtain ⟨base, fresh⟩ := trusted
    exact (account.issue _ base fresh).of_alike alike
  | burn conn alike => exact (account.burn conn).of_alike alike
  | enter admitted => exact account.enter admitted _ trusted
  | force _ =>
    refine account.weaken (fun _ _ here => here) ?_ ?_ rfl (List.Subset.refl _) rfl
    · show (List.filterMap pendingNonce (broker.requests ++ [_])).Sublist _
      rw [List.filterMap_append]
      show (_ ++ []).Sublist _
      rw [List.append_nil]
    · intro request member auth
      rcases List.mem_append.mp member with early | last
      · exact ⟨request, early, rfl, rfl, rfl, rfl⟩
      · rw [List.mem_singleton.mp last] at auth
        cases auth
  | finish index alike => exact (account.finish index).of_alike alike
  | proceed found continues phase =>
    refine account.proceed found continues ?_
    rcases phase with ⟨gating, appending⟩ | ⟨messageId, deduped, written⟩
    · refine Or.inr ?_
      rw [pendingNonce, pendingNonce, gating, appending]
      exact continues.nonce.symm
    · refine Or.inl ?_
      rw [pendingNonce, written]
  | append messageId found appending _ => exact account.append found appending messageId
  | sign what =>
    exact account.weaken (fun _ _ here => here) (List.Sublist.refl _)
      (fun request member _ => ⟨request, member, rfl, rfl, rfl, rfl⟩) rfl
      (List.subset_append_left _ _) rfl
  | mailbox runId taskId found =>
    exact account.weaken (fun _ _ here => here) (List.Sublist.refl _)
      (fun request member _ => ⟨request, member, rfl, rfl, rfl, rfl⟩) rfl (List.Subset.refl _) rfl

theorem accounted_init : Accounted redactSecrets ({} : CrewBroker γ) where
  unique := List.nodup_nil
  base := List.forall_mem_nil _
  live := nofun
  known := List.forall_mem_nil _
  once := List.nodup_nil
  requested := List.forall_mem_nil _
  appended := List.forall_mem_nil _

theorem Accounted.safe (account : Accounted redactSecrets broker) :
    ChallengeResponseSafe redactSecrets broker where
  signed := account.appended
  once := account.once.sublist (List.sublist_append_right _ _)

/-- **What is signed determines the nonce and the fields, and every row that `respond.append` appends was
signed**, in every run whose nonces are drawn anew and whose signatures are not forged. -/
theorem challenge_response_safe (dispatcherVerifyKey : Option κ) (verify : κ → Text → Text → Bool)
    (redactSecrets : ResponseRow → ResponseRow) :
    (∀ nonce other params others,
      respondAppendSignInput nonce params = respondAppendSignInput other others
        ↔ nonce = other ∧ params.withRun others.runId = others) ∧
    ∀ actions : List (Action γ ν),
      (∀ taken ∈ Runs.transitions (CrewBroker.step dispatcherVerifyKey verify redactSecrets) {} actions,
        Trusted dispatcherVerifyKey verify taken.before taken.action) →
      ∀ taken ∈ Runs.transitions (CrewBroker.step dispatcherVerifyKey verify redactSecrets) {} actions,
        ChallengeResponseSafe redactSecrets taken.before ∧
          ChallengeResponseSafe redactSecrets taken.after := by
  refine ⟨signInput_eq_iff, fun actions trusted taken member => ?_⟩
  have kept := Runs.forall_transitions _
    (fun state action (account : Accounted redactSecrets state) trusted =>
      accounted_step account action trusted)
    accounted_init trusted taken member
  exact ⟨kept.1.safe, kept.2.safe⟩

end

instance decidableTrusted {γ ν κ : Type} (dispatcherVerifyKey : Option κ)
    (verify : κ → Text → Text → Bool) (broker : CrewBroker γ) (action : Action γ ν) :
    Decidable (Trusted dispatcherVerifyKey verify broker action) := by
  cases action with
  | challenge conn params nonce now =>
    exact @instDecidableAnd _ _ (List.decidableBAll (isBase64Url · = true) nonce) inferInstance
  | _ =>
    dsimp only [Trusted]
    infer_instance

def plainResponse : RespondCommonParams where
  runId := units "r"
  taskId := units "t"
  questionId := units "q"
  body := units "yes"

def drawnNonce : Text := units "abcdefghijklmnop"

def signedParams (nonce : Text) (params : RespondCommonParams) : Value Empty :=
  stringParams [("runId", params.runId), ("taskId", params.taskId),
    ("questionId", params.questionId), ("body", params.body), ("nonce", nonce),
    ("sig", openScheme.sign () (toWellFormed (respondAppendSignInput nonce params)))]

def appendRun : List (Action Unit Empty) :=
  [.run (units "r") (some [{ id := units "t", status := .waiting }]),
    .challenge () (stringParams [("runId", units "r")]) drawnNonce 0,
    .sign (.response drawnNonce plainResponse),
    .append () (signedParams drawnNonce plainResponse) 1 (units "s"), .write 0, .settle 0]

theorem challenge_response_safe_append :
    (∀ taken ∈ Runs.transitions (CrewBroker.step (some ()) openScheme.verify id) {} appendRun,
        Trusted (some ()) openScheme.verify taken.before taken.action) ∧
      ∀ taken ∈ Runs.transitions (CrewBroker.step (some ()) openScheme.verify id) {} appendRun,
        ChallengeResponseSafe id taken.before ∧ ChallengeResponseSafe id taken.after := by
  have trusted : ∀ taken ∈ Runs.transitions (CrewBroker.step (some ()) openScheme.verify id) {}
      appendRun, Trusted (some ()) openScheme.verify taken.before taken.action := by
    decide +kernel
  exact ⟨trusted, (challenge_response_safe (some ()) openScheme.verify id).2 appendRun trusted⟩

/-- **The run is not signed**, nor are the defaults of the row: responses to two runs have one text that
is signed, and a row is appended with a priority and a request id that nobody signed. -/
theorem run_is_not_signed :
    let first := parseRespondAppendParams (signedParams drawnNonce plainResponse)
    let second := parseRespondAppendParams
      (signedParams drawnNonce (plainResponse.withRun (units "s")))
    let broker := Runs.finish (CrewBroker.step (some ()) openScheme.verify id) {} appendRun
    first.isSome = true ∧ second.isSome = true ∧ first ≠ second ∧
      (first.map fun given => respondAppendSignInput given.nonce given.toRespondCommonParams)
        = (second.map fun given => respondAppendSignInput given.nonce given.toRespondCommonParams) ∧
      broker.signed = [.response drawnNonce plainResponse] ∧
      plainResponse.priority = none ∧ plainResponse.requestId = none ∧
      (broker.rows.map fun appended => (appended.row.priority, appended.row.requestId))
        = [(.normal, units "q")] := by
  decide +kernel

end PiCrew.Broker.Respond
