import GoAgent.Foundation.Transition
import GoAgent.Foundation.Triple
import GoAgent.Interaction.Gateway

/-!
# Every execution has passed every gate

A `Gate` stands before an execution: the last thing the request has done is to read the
capability, the catalog then offered it to the permissions of the principal, and the inputs
satisfy its schema. Without a confirmation its policy is `never`; else this request has consumed a
proposal that was kept for the same subject, with the dispatch key of the capability.

The proof is one triple for each function of the gateway, with the invariant `Inv`: what has been
executed has passed its gate, and what the store keeps has been issued.

* `recognize_upholds`, `confirm_upholds`, `confirmDialogueAgent_upholds` — a request keeps `Inv`.
* `executions_are_gated` — every execution, in every run of requests.
-/

namespace GoAgent.Interaction

open GoAgent.Foundation

/-! ## Gates -/

/-- The last act is a read, and the catalog it found offers the capability. -/
def Offered (d : Deployment) (acts : List Act) (code : String) (permissions : List String)
    (c : PlatformCapability) : Prop :=
  ∃ index catalog, acts.getLast? = some (.read index code permissions) ∧
    d.catalog index = .ok catalog ∧ catalog.Offers code permissions c

/-- This request has consumed a proposal of the execution, which was kept for its principal. -/
def Confirmed (issued : List (ConfirmationProposal × Option String)) (acts : List Act)
    (c : PlatformCapability) (x : Execution) : Prop :=
  ∃ p, .consumed p x.principal.subject ∈ acts ∧ (p, x.principal.subject) ∈ issued ∧
    p.capabilityCode = x.capabilityCode ∧ p.dispatchKey = c.dispatchKey ∧ p.inputs = x.inputs

/-- What stands before an execution, given the acts before it. -/
structure Gate (d : Deployment) (issued : List (ConfirmationProposal × Option String))
    (acts : List Act) (route : Route) (x : Execution) (c : PlatformCapability) : Prop where
  offered : Offered d acts x.capabilityCode x.principal.permissionTuple c
  dispatchKey : c.dispatchKey = x.dispatchKey
  accepts : c.Accepts x.inputs
  allowed : route = .direct ∧ c.confirmationPolicy = .never ∨ Confirmed issued acts c x

def Gated (d : Deployment) (g : Gateway) : Prop :=
  ∀ before route x after, g.acts = before ++ .executed route x :: after →
    ∃ c, Gate d g.issued before route x c

/-- The proposal the request has consumed. -/
abbrev Consumed := Option (ConfirmationProposal × Option String)

structure Inv (d : Deployment) (consumed : Consumed) (g : Gateway) : Prop where
  gated : Gated d g
  kept : ∀ e ∈ g.entries, (e.proposal, e.subject) ∈ g.issued
  consumed : ∀ p subject, consumed = some (p, subject) →
    .consumed p subject ∈ g.acts ∧ (p, subject) ∈ g.issued

section

variable {d : Deployment} {s : Surroundings} {consumed : Consumed} {g : Gateway} {a : Act}
  {code : String} {permissions : List String} {assessment : IntentAssessment}

theorem Inv.forget (h : Inv d consumed g) : Inv d none g :=
  ⟨h.gated, h.kept, fun _ _ he => by cases he⟩

theorem append_singleton_eq {α : Type} {l pre post : List α} {x y : α}
    (h : l ++ [y] = pre ++ x :: post) :
    (post = [] ∧ x = y ∧ l = pre) ∨ ∃ post', l = pre ++ x :: post' := by
  rcases List.eq_nil_or_concat post with rfl | ⟨post', z, rfl⟩
  · obtain ⟨hl, hx⟩ := List.append_inj' h rfl
    exact Or.inl ⟨rfl, (List.singleton_inj.1 hx).symm, hl⟩
  · right
    refine ⟨post', ?_⟩
    rw [List.concat_eq_append, ← List.cons_append, ← List.append_assoc] at h
    exact (List.append_inj' h rfl).1

/-- An act keeps the invariant, if it is no execution or stands behind its gate. -/
theorem Inv.snoc (h : Inv d consumed g)
    (hgate : ∀ route x, a = .executed route x → ∃ c, Gate d g.issued g.acts route x c) :
    Inv d consumed { g with acts := g.acts ++ [a] } := by
  refine ⟨fun before route x after he => ?_, h.kept, fun p subject he => ?_⟩
  · rcases append_singleton_eq he with ⟨-, hx, hbefore⟩ | ⟨after', he'⟩
    · obtain ⟨c, hc⟩ := hgate route x hx.symm
      exact ⟨c, hbefore ▸ hc⟩
    · exact h.gated before route x after' he'
  · obtain ⟨hact, hissued⟩ := h.consumed p subject he
    exact ⟨List.mem_append_left _ hact, hissued⟩

/-! ## The store and the catalog -/

theorem mem_purgeExpired {e : ProposalEntry} (h : e ∈ g.purgeExpired.entries) : e ∈ g.entries :=
  List.mem_of_mem_filter h

theorem save_upholds {proposal : ConfirmationProposal} {subject : Option String} :
    Upholds (Inv d consumed) (save d proposal subject) := by
  refine Triple.modify fun g h => ⟨fun before route x after he => ?_, fun e he => ?_,
    fun p subject' he => ?_⟩
  · obtain ⟨c, hc⟩ := h.gated before route x after he
    refine ⟨c, hc.offered, hc.dispatchKey, hc.accepts, hc.allowed.imp_right ?_⟩
    rintro ⟨p, hp, hissued, hrest⟩
    exact ⟨p, hp, List.mem_append_left _ hissued, hrest⟩
  · rcases List.mem_append.1 he with he | he
    · exact List.mem_append_left _ (h.kept e (mem_purgeExpired (List.mem_of_mem_filter he)))
    · rw [List.mem_singleton.1 he]
      exact List.mem_append_right _ List.mem_cons_self
  · obtain ⟨hact, hissued⟩ := h.consumed p subject' he
    exact ⟨hact, List.mem_append_left _ hissued⟩

/-- What is consumed was kept for the subject; what is left was kept before. -/
theorem consumed_spec (g : Gateway) (proposalId : String) (subject : Option String) :
    (∀ p, (g.consumed proposalId subject).1 = some p →
      ∃ e ∈ g.entries, e.proposal = p ∧ e.subject = subject ∧ p.proposalId = proposalId) ∧
    ∀ e ∈ (g.consumed proposalId subject).2, e ∈ g.entries := by
  cases hlookup : lookup ProposalEntry.id proposalId g.purgeExpired.entries with
  | none =>
    have heq : g.consumed proposalId subject = (none, g.purgeExpired.entries) := by
      simp only [Gateway.consumed, hlookup]
    rw [heq]
    exact ⟨fun p hp => (by cases hp), fun e he => mem_purgeExpired he⟩
  | some e =>
    have hmem := mem_purgeExpired (mem_of_lookup hlookup)
    have hid := key_of_lookup hlookup
    by_cases hsubject : e.subject = subject
    · have heq : g.consumed proposalId subject =
          (some e.proposal, g.purgeExpired.entries.filter fun e => e.id ≠ proposalId) := by
        simp only [Gateway.consumed, hlookup, if_neg (not_not.2 hsubject)]
      rw [heq]
      refine ⟨fun p hp => ?_, fun e' he' => mem_purgeExpired (List.mem_of_mem_filter he')⟩
      obtain rfl := Option.some.inj hp
      exact ⟨e, hmem, rfl, hsubject, hid⟩
    · have heq : g.consumed proposalId subject = (none, g.purgeExpired.entries) := by
        simp only [Gateway.consumed, hlookup, if_pos hsubject]
      rw [heq]
      exact ⟨fun p hp => (by cases hp), fun e he => mem_purgeExpired he⟩

/-- An act that is no execution. -/
theorem act_upholds (ha : ∀ route x, a ≠ .executed route x) :
    Upholds (Inv d consumed) (act a) :=
  Triple.modify fun _ h => h.snoc fun route x he => absurd he (ha route x)

theorem consume_spec {proposalId : String} {subject : Option String} :
    Triple (Inv d none) (consume proposalId subject)
      (fun p => Inv d (p.map fun p => (p, subject))) (Inv d none) := by
  refine Triple.bind Triple.get fun g => ?_
  obtain ⟨htaken, hleft⟩ := consumed_spec g proposalId subject
  generalize g.consumed proposalId subject = r at htaken hleft ⊢
  obtain ⟨taken, entries⟩ := r
  have hmodify : Triple (fun g' => g = g' ∧ Inv d none g')
      (modify fun g => { g with entries } : GatewayM Unit)
      (fun _ g' => Inv d none g' ∧ ∀ p, taken = some p → (p, subject) ∈ g'.issued) (Inv d none) := by
    refine Triple.modify fun g' hg => ?_
    obtain ⟨rfl, h⟩ := hg
    refine ⟨⟨h.gated, fun e he => h.kept e (hleft e he), fun _ _ he => by cases he⟩,
      fun p hp => ?_⟩
    obtain ⟨e, he, rfl, rfl, -⟩ := htaken p hp
    exact h.kept e he
  refine Triple.bind hmodify fun _ => ?_
  cases taken with
  | none => exact Triple.pure fun g' h => h.1
  | some p =>
    refine Triple.bind (R := fun _ => Inv d (some (p, subject))) (Triple.modify fun g' h => ?_)
      fun _ => Triple.pure fun _ h => h
    have hsnoc := h.1.snoc (a := .consumed p subject) fun route x he => by cases he
    refine ⟨hsnoc.gated, hsnoc.kept, fun p' subject' he => ?_⟩
    cases he
    exact ⟨List.mem_append_right _ List.mem_cons_self, h.2 p rfl⟩

/-- A read that offers a capability. -/
theorem getAvailable_spec :
    Triple (Inv d consumed) (getAvailable d code permissions)
      (fun r g => Inv d consumed g ∧
        ∀ c, r = .ok (some c) → Offered d g.acts code permissions c) (Inv d consumed) := by
  refine Triple.bind Triple.get fun g => ?_
  have hread : Triple (fun g' => g = g' ∧ Inv d consumed g')
      (modify fun g => { g with reads := g.reads + 1 } : GatewayM Unit)
      (fun _ => Inv d consumed) (Inv d consumed) :=
    Triple.modify fun g' hg => ⟨hg.2.gated, hg.2.kept, hg.2.consumed⟩
  refine Triple.bind hread fun _ => ?_
  have hact : Triple (Inv d consumed) (act (.read g.reads code permissions))
      (fun _ g' => Inv d consumed g' ∧
        g'.acts.getLast? = some (.read g.reads code permissions)) (Inv d consumed) := by
    refine Triple.modify fun g' h => ⟨h.snoc fun route x he => (by cases he), ?_⟩
    exact List.getLast?_concat
  refine Triple.bind hact fun _ => ?_
  cases hfound : (d.catalog g.reads).bind fun catalog => catalog.getAvailable code permissions with
  | ok found =>
    refine Triple.pure fun g' h => ⟨h.1, fun c hc => ?_⟩
    obtain rfl := Except.ok.inj hc
    cases hcatalog : d.catalog g.reads with
    | error e =>
      rw [hcatalog] at hfound
      cases hfound
    | ok catalog =>
      rw [hcatalog] at hfound
      exact ⟨g.reads, catalog, h.2, hcatalog,
        PlatformCapabilityCatalog.offers_of_getAvailable hfound⟩
  | error e =>
    cases e with
    | exception type => exact Triple.pure fun g' h => ⟨h.1, fun c hc => by cases hc⟩
    | cancelledError | generatorExit | other => exact Triple.throw fun g' h => h.1

/-- A pure check keeps the invariant. -/
theorem lift_upholds {α : Type} {y : Except BaseException α} :
    Upholds (Inv d consumed) (lift y) :=
  Triple.lift (fun _ _ _ h => h) fun _ _ _ h => h

/-- A read, and what is done with its answer. -/
theorem upholds_of_getAvailable {α : Type}
    {f : Except String (Option PlatformCapability) → GatewayM α}
    (hf : ∀ r, Upholds (Inv d consumed) (f r)) :
    Upholds (Inv d consumed) (getAvailable d code permissions >>= f) :=
  Triple.bind (getAvailable_spec.post fun _ _ h => h.1) hf

theorem pure_upholds {α : Type} {a : α} : Upholds (Inv d consumed) (pure a : GatewayM α) :=
  Triple.pure fun _ h => h

/-! ## Recognition -/

theorem createProposal_upholds {proposalId : String} :
    Upholds (Inv d consumed) (createProposal d assessment permissions proposalId) := by
  unfold createProposal
  split
  · refine upholds_of_getAvailable fun r => ?_
    rcases r with e | (_ | c)
    · exact pure_upholds
    · exact pure_upholds
    · dsimp only
      split
      · exact pure_upholds
      · refine Triple.bind lift_upholds fun validation => ?_
        split <;> exact pure_upholds
  · exact pure_upholds

theorem loadAvailableCandidates_upholds {codes : List String}
    {loaded : List (String × PlatformCapability)} :
    Upholds (Inv d consumed) (loadAvailableCandidates d permissions codes loaded) := by
  induction codes generalizing loaded with
  | nil => exact pure_upholds
  | cons code codes ih =>
    unfold loadAvailableCandidates
    split
    · exact ih
    · refine upholds_of_getAvailable fun r => ?_
      rcases r with e | (_ | c)
      · exact pure_upholds
      · exact ih
      · exact ih

theorem toAssessment_upholds {output : ModelOutput}
    {candidates : List (String × PlatformCapability)} {providedInputs : Inputs}
    {model promptVersion : String} :
    Upholds (Inv d consumed)
      (toAssessment d output candidates permissions providedInputs model promptVersion) := by
  unfold toAssessment
  dsimp only
  split
  · exact pure_upholds
  · split
    · exact pure_upholds
    · split
      · exact pure_upholds
      · refine upholds_of_getAvailable fun r => ?_
        rcases r with e | (_ | c)
        · exact pure_upholds
        · exact pure_upholds
        · refine Triple.bind lift_upholds fun validation => ?_
          split
          · exact pure_upholds
          · split <;> exact pure_upholds

theorem recognizeIntent_upholds {userInput : String} {providedInputs : Inputs} :
    Upholds (Inv d consumed) (recognizeIntent d s userInput permissions providedInputs) := by
  unfold recognizeIntent
  split
  · exact pure_upholds
  · split
    · exact pure_upholds
    · exact Triple.throw fun _ h => h
    · exact pure_upholds
    · split
      · exact pure_upholds
      · refine Triple.bind loadAvailableCandidates_upholds fun r => ?_
        rcases r with e | candidates
        · exact pure_upholds
        · dsimp only
          split
          · exact pure_upholds
          · split
            · exact pure_upholds
            · exact Triple.throw fun _ h => h
            · split
              · exact toAssessment_upholds
              · exact pure_upholds

theorem resolveAttachments_upholds :
    Upholds (Inv d consumed) (resolveAttachments d s assessment permissions) := by
  unfold resolveAttachments
  split
  · exact pure_upholds
  · refine upholds_of_getAvailable fun r => ?_
    rcases r with e | (_ | c)
    · exact pure_upholds
    · exact pure_upholds
    · dsimp only
      split
      · exact pure_upholds
      · split
        · exact pure_upholds
        · refine Triple.bind lift_upholds fun resolution => ?_
          split <;> exact pure_upholds

/-- What stands before a direct execution. -/
def DirectGate (d : Deployment) (permissions : List String) (x : DirectCapabilityExecution)
    (acts : List Act) : Prop :=
  ∃ c, Offered d acts x.capabilityCode permissions c ∧ c.dispatchKey = x.dispatchKey ∧
    c.Accepts x.inputs ∧ c.confirmationPolicy = .never

/-- A validation that returns has accepted the inputs, if it is valid. -/
theorem validation_spec {P : Gateway → Prop} {c : PlatformCapability} {inputs : Inputs} :
    Triple P (lift (validateCapabilityInputs c inputs) : GatewayM InputValidationResult)
      (fun validation g => P g ∧ (validation.valid = true → c.Accepts inputs)) P :=
  Triple.lift (fun validation _ hv h => ⟨h, fun hvalid => ⟨validation, hv, hvalid⟩⟩) fun _ _ _ h => h

theorem prepareUnconfirmedExecution_spec :
    Triple (Inv d none) (prepareUnconfirmedExecution d assessment permissions)
      (fun r g => Inv d none g ∧ ∀ x, r = .ok (some x) → DirectGate d permissions x g.acts)
      (Inv d none) := by
  have hnone : ∀ {r : Except GatewayResult (Option DirectCapabilityExecution)},
      (∀ x, r ≠ .ok (some x)) → Triple (Inv d none) (pure r : GatewayM _)
        (fun r g => Inv d none g ∧ ∀ x, r = .ok (some x) → DirectGate d permissions x g.acts)
        (Inv d none) := fun hr => Triple.pure fun g h => ⟨h, fun x hx => absurd hx (hr x)⟩
  unfold prepareUnconfirmedExecution
  split
  · exact hnone fun x hx => by cases hx
  · next code hcode =>
    refine Triple.bind getAvailable_spec fun r => ?_
    rcases r with e | (_ | c)
    · exact (hnone fun x hx => by cases hx).pre fun _ h => h.1
    · exact (hnone fun x hx => by cases hx).pre fun _ h => h.1
    · dsimp only
      split
      · exact (hnone fun x hx => by cases hx).pre fun _ h => h.1
      · next hpolicy =>
        refine Triple.bind (validation_spec.imp (fun _ h => h) (fun _ _ h => h) fun _ h => h.1)
          fun validation => ?_
        split
        · next hvalid =>
          refine Triple.pure fun g h => ⟨h.1.1, fun x hx => ?_⟩
          obtain rfl := Option.some.inj (Except.ok.inj hx)
          have hoffered := h.1.2 c rfl
          have hcode' : c.code = code := by
            obtain ⟨_, _, _, _, hoffers⟩ := hoffered
            exact hoffers.code
          exact ⟨c, hcode' ▸ hoffered, rfl, h.2 hvalid, not_not.1 hpolicy⟩
        · exact (hnone fun x hx => by cases hx).pre fun _ h => h.1.1

theorem authorize_spec {principal : RequestPrincipal} {message : String}
    {execution : DirectCapabilityExecution} :
    Triple (fun g => Inv d none g ∧ DirectGate d principal.permissionTuple execution g.acts)
      (authorize principal message assessment execution) (fun _ => Inv d none) (Inv d none) := by
  refine Triple.bind (R := fun _ => Inv d none) (Triple.modify fun g hg => ?_) fun _ => pure_upholds
  obtain ⟨h, c, hoffered, hkey, haccepts, hpolicy⟩ := hg
  refine h.snoc fun route x hx => ⟨c, ?_⟩
  cases hx
  exact ⟨hoffered, hkey, haccepts, Or.inl ⟨rfl, hpolicy⟩⟩

theorem recognizeUnmatched_upholds {command : GatewayRecognitionCommand} :
    Upholds (Inv d none)
      (recognizeUnmatched d command assessment command.principal.permissionTuple) := by
  have hfallback : Upholds (Inv d none)
      (prepareGeneralChatFallback d command assessment command.principal.permissionTuple) := by
    refine Triple.bind prepareUnconfirmedExecution_spec fun r => ?_
    rcases r with e | (_ | x)
    · exact pure_upholds.pre fun _ h => h.1
    · exact pure_upholds.pre fun _ h => h.1
    · dsimp only
      split
      · exact pure_upholds.pre fun _ h => h.1
      · refine Triple.bind (authorize_spec.pre fun g h => ?_) fun _ => pure_upholds
        exact ⟨h.1, h.2 x rfl⟩
  unfold recognizeUnmatched
  dsimp only
  split
  · refine Triple.bind hfallback fun r => ?_
    cases r <;> exact pure_upholds
  · exact pure_upholds

theorem recognizeMatched_upholds {command : GatewayRecognitionCommand} :
    Upholds (Inv d none)
      (recognizeMatched d s command assessment command.principal.permissionTuple) := by
  refine Triple.bind resolveAttachments_upholds fun r => ?_
  rcases r with e | assessment
  · exact pure_upholds
  · refine Triple.bind prepareUnconfirmedExecution_spec fun r => ?_
    rcases r with e | (_ | x)
    · exact pure_upholds.pre fun _ h => h.1
    · refine Triple.bind (createProposal_upholds.pre fun _ h => h.1) fun confirmation => ?_
      split
      · exact Triple.bind save_upholds fun _ => pure_upholds
      · exact pure_upholds
    · exact authorize_spec.pre fun g h => ⟨h.1, h.2 x rfl⟩

theorem recognize_upholds {command : GatewayRecognitionCommand} :
    Upholds (Inv d none) (recognize d s command) := by
  unfold recognize
  split
  · exact pure_upholds
  · refine Triple.bind recognizeIntent_upholds fun assessment => ?_
    split
    · exact recognizeMatched_upholds
    · exact recognizeUnmatched_upholds

/-! ## Confirmation -/

/-- What is approved is the proposal. -/
theorem respond_approved {p : ConfirmationProposal} {action : ConfirmationAction}
    {approved : ApprovedCapabilityDispatch} (h : (respond p action).approvedDispatch = some approved) :
    approved.capabilityCode = p.capabilityCode ∧ approved.dispatchKey = p.dispatchKey ∧
      approved.inputs = p.inputs := by
  unfold respond at h
  split_ifs at h <;> cases h
  exact ⟨rfl, rfl, rfl⟩

theorem callHandler_spec {route : Route} {x : Execution} :
    Triple (fun g => Inv d consumed g ∧ ∃ c, Gate d g.issued g.acts route x c)
      (callHandler s route x) (fun _ => Inv d consumed) (Inv d consumed) := by
  refine Triple.bind (R := fun _ => Inv d consumed) (Triple.modify fun g hg => ?_) fun _ => ?_
  · obtain ⟨h, hgate⟩ := hg
    refine h.snoc fun route x hx => ?_
    cases hx
    exact hgate
  · split
    · exact pure_upholds
    · split
      · exact pure_upholds
      · split <;> exact pure_upholds
    · exact Triple.throw fun _ h => h

/-- The gate of an execution of the proposal this request has consumed. -/
theorem gate_of_consumed {p : ConfirmationProposal} {principal : RequestPrincipal}
    {c : PlatformCapability} {route : Route}
    (h : Inv d (some (p, principal.subject)) g)
    (hoffered : Offered d g.acts p.capabilityCode principal.permissionTuple c)
    (hkey : c.dispatchKey = p.dispatchKey) (haccepts : c.Accepts p.inputs) :
    Gate d g.issued g.acts route ⟨p.capabilityCode, p.dispatchKey, p.inputs, principal⟩ c := by
  obtain ⟨hact, hissued⟩ := h.consumed p principal.subject rfl
  exact ⟨hoffered, hkey, haccepts, Or.inr ⟨p, hact, hissued, rfl, hkey.symm, rfl⟩⟩

theorem dispatch_upholds {p : ConfirmationProposal} {approved : ApprovedCapabilityDispatch}
    {principal : RequestPrincipal} (hcode : approved.capabilityCode = p.capabilityCode)
    (hkey : approved.dispatchKey = p.dispatchKey) (hinputs : approved.inputs = p.inputs) :
    Upholds (Inv d (some (p, principal.subject))) (dispatch d s approved principal) := by
  unfold dispatch
  refine Triple.bind getAvailable_spec fun r => ?_
  rcases r with e | (_ | c)
  · exact pure_upholds.pre fun _ h => h.1
  · exact pure_upholds.pre fun _ h => h.1
  · dsimp only
    split
    · exact pure_upholds.pre fun _ h => h.1
    · next hmatch =>
      refine Triple.bind (validation_spec.imp (fun _ h => h) (fun _ _ h => h) fun _ h => h.1)
        fun validation => ?_
      split
      · exact pure_upholds.pre fun _ h => h.1.1
      · next hvalid =>
        have hgate : ∀ (route : Route) (g : Gateway),
            ((Inv d (some (p, principal.subject)) g ∧ ∀ c', Except.ok (some c) =
                (Except.ok (some c') : Except String (Option PlatformCapability)) →
              Offered d g.acts approved.capabilityCode principal.permissionTuple c') ∧
              (validation.valid = true → c.Accepts approved.inputs)) →
            Inv d (some (p, principal.subject)) g ∧ ∃ c', Gate d g.issued g.acts route
              ⟨c.code, c.dispatchKey, approved.inputs, principal⟩ c' := by
          intro route g h
          have hoffered := h.1.2 c rfl
          have hcode' : c.code = p.capabilityCode := by
            obtain ⟨_, _, _, _, hoffers⟩ := hoffered
            exact hoffers.code.trans hcode
          have hkey' : c.dispatchKey = p.dispatchKey := (not_not.1 hmatch).trans hkey
          have haccepts : c.Accepts p.inputs := by
            rw [← hinputs]
            exact h.2 (by simpa using hvalid)
          rw [hcode'  , hkey', hinputs]
          rw [hcode] at hoffered
          exact ⟨h.1.1, c, gate_of_consumed h.1.1 hoffered hkey' haccepts⟩
        split
        · split
          · exact callHandler_spec.pre (hgate .agentHandler)
          · exact pure_upholds.pre fun _ h => h.1.1
        · split
          · exact callHandler_spec.pre (hgate .handler)
          · exact pure_upholds.pre fun _ h => h.1.1

theorem confirmConsumed_upholds {command : GatewayConfirmationCommand} {p : ConfirmationProposal} :
    Upholds (Inv d (some (p, command.principal.subject))) (confirmConsumed d s command p) := by
  unfold confirmConsumed
  split
  · exact pure_upholds
  · dsimp only
    split
    · exact pure_upholds
    · next approved hstatus happroved =>
      obtain ⟨hcode, hkey, hinputs⟩ := respond_approved happroved
      exact Triple.bind (dispatch_upholds hcode hkey hinputs) fun _ => pure_upholds
    · exact pure_upholds

theorem confirm_upholds {command : GatewayConfirmationCommand} :
    Upholds (Inv d none) (confirm d s command) := by
  refine Triple.bind consume_spec fun r => ?_
  cases r with
  | none => exact pure_upholds
  | some p =>
    exact confirmConsumed_upholds.imp (fun _ h => h) (fun _ _ h => h.forget) fun _ h => h.forget

theorem dialogueResponse_approved {confirmation : ConfirmationResult}
    {approved : ApprovedCapabilityDispatch}
    (h : (dialogueResponse confirmation).approvedDispatch = some approved) :
    confirmation.approvedDispatch = some approved := by
  unfold dialogueResponse at h
  split at h
  · cases h
  · next happroved =>
    cases h
    exact happroved
  · cases h

theorem approve_spec {principal : RequestPrincipal} {result : DialogueAgentConfirmationResult} :
    Triple (fun g => Inv d consumed g ∧ ∀ approved, result.approvedDispatch = some approved →
        ∃ c, Gate d g.issued g.acts .dialogueAgent
          ⟨approved.capabilityCode, approved.dispatchKey, approved.inputs, principal⟩ c)
      (approve principal result) (fun _ => Inv d consumed) (Inv d consumed) := by
  unfold approve
  cases happroved : result.approvedDispatch with
  | none => exact pure_upholds.pre fun _ h => h.1
  | some approved =>
    refine Triple.bind (R := fun _ => Inv d consumed) (Triple.modify fun g h => ?_) fun _ =>
      pure_upholds
    refine h.1.snoc fun route x hx => ?_
    cases hx
    exact h.2 approved rfl

theorem confirmDialogueAgentConsumed_upholds {command : GatewayConfirmationCommand}
    {p : ConfirmationProposal} :
    Upholds (Inv d (some (p, command.principal.subject)))
      (confirmDialogueAgentConsumed d command p) := by
  unfold confirmDialogueAgentConsumed
  split
  · exact pure_upholds
  · split
    · exact pure_upholds
    · refine Triple.bind getAvailable_spec fun r => ?_
      rcases r with e | (_ | c)
      · exact pure_upholds.pre fun _ h => h.1
      · exact pure_upholds.pre fun _ h => h.1
      · dsimp only
        split
        · exact pure_upholds.pre fun _ h => h.1
        · split
          · exact pure_upholds.pre fun _ h => h.1
          · next hmatch =>
            refine Triple.bind (validation_spec.imp (fun _ h => h) (fun _ _ h => h) fun _ h => h.1)
              fun validation => ?_
            split
            · exact pure_upholds.pre fun _ h => h.1.1
            · next hvalid =>
              refine approve_spec.pre fun g h => ⟨h.1.1, fun approved happroved => ⟨c, ?_⟩⟩
              obtain ⟨hcode, hkey, hinputs⟩ :=
                respond_approved (dialogueResponse_approved happroved)
              rw [hcode, hkey, hinputs]
              exact gate_of_consumed h.1.1 (h.1.2 c rfl) (not_not.1 hmatch)
                (h.2 (by simpa using hvalid))

theorem confirmDialogueAgent_upholds {command : GatewayConfirmationCommand} :
    Upholds (Inv d none) (confirmDialogueAgent d command) := by
  refine Triple.bind consume_spec fun r => ?_
  cases r with
  | none => exact pure_upholds
  | some p =>
    exact confirmDialogueAgentConsumed_upholds.imp (fun _ h => h) (fun _ _ h => h.forget)
      fun _ h => h.forget

/-! ## Runs of requests -/

end

inductive Request where
  | recognize (s : Surroundings) (command : GatewayRecognitionCommand)
  | confirm (s : Surroundings) (command : GatewayConfirmationCommand)
  | confirmDialogueAgent (command : GatewayConfirmationCommand)
  | wait (ticks : Nat)

/-- A request is answered, or raises; its acts are recorded from its start. -/
def Request.run (d : Deployment) : Request → GatewayM Unit
  | recognize s command => discard (GoAgent.Interaction.recognize d s command)
  | confirm s command => discard (GoAgent.Interaction.confirm d s command)
  | confirmDialogueAgent command => discard (GoAgent.Interaction.confirmDialogueAgent d command)
  | wait ticks => modify fun g => { g with now := g.now + ticks }

def Handles (d : Deployment) (g : Gateway) (request : Request) (g' : Gateway) : Prop :=
  request.run d { g with acts := [] } = .ok () g' ∨
    ∃ e, request.run d { g with acts := [] } = .error e g'

theorem discard_upholds {d : Deployment} {consumed : Consumed} {α : Type} {m : GatewayM α}
    (h : Upholds (Inv d consumed) m) : Upholds (Inv d consumed) (discard m) :=
  Triple.bind h fun _ => pure_upholds

theorem run_upholds {d : Deployment} (request : Request) :
    Upholds (Inv d none) (request.run d) := by
  cases request with
  | recognize s command => exact discard_upholds recognize_upholds
  | confirm s command => exact discard_upholds confirm_upholds
  | confirmDialogueAgent command => exact discard_upholds confirmDialogueAgent_upholds
  | wait ticks => exact Triple.modify fun g h => ⟨h.gated, h.kept, h.consumed⟩

/-- **A request keeps the invariant.** -/
theorem inv_of_handles {d : Deployment} {g g' : Gateway} {request : Request} (h : Inv d none g)
    (hs : Handles d g request g') : Inv d none g' := by
  have hnew : Inv d none { g with acts := [] } := by
    refine ⟨fun before route x after he => ?_, h.kept, fun _ _ he => by cases he⟩
    exact absurd he (by simp)
  obtain ⟨hok, herror⟩ := run_upholds request _ hnew
  rcases hs with hs | ⟨e, hs⟩
  · exact hok () g' hs
  · exact herror e g' hs

theorem inv_initial {d : Deployment} : Inv d none {} := by
  refine ⟨fun before route x after he => ?_, fun e he => ?_, fun _ _ he => by cases he⟩
  · exact absurd he (by simp)
  · cases he

/-- **Nothing is executed that has not passed every gate.** -/
theorem executions_are_gated {d : Deployment} {g : Gateway}
    (h : Reachable (· = {}) (Handles d) g) {before after : List Act} {route : Route}
    {x : Execution} (hacts : g.acts = before ++ .executed route x :: after) :
    ∃ c : PlatformCapability,
      -- the last read before it offered the capability to the permissions of the principal
      (∃ index catalog,
        before.getLast? = some (.read index x.capabilityCode x.principal.permissionTuple) ∧
        d.catalog index = .ok catalog ∧
        catalog.Offers x.capabilityCode x.principal.permissionTuple c) ∧
      c.dispatchKey = x.dispatchKey ∧
      -- its inputs are valid
      c.Accepts x.inputs ∧
      -- and it needs no confirmation, or has one by the subject it was kept for
      (route = .direct ∧ c.confirmationPolicy = .never ∨
        ∃ p, .consumed p x.principal.subject ∈ before ∧ (p, x.principal.subject) ∈ g.issued ∧
          p.capabilityCode = x.capabilityCode ∧ p.dispatchKey = c.dispatchKey ∧
          p.inputs = x.inputs) := by
  have hinv : Inv d none g := by
    refine h.invariant (P := Inv d none) (fun hinit => ?_) inv_of_handles
    rw [hinit]
    exact inv_initial
  obtain ⟨c, hgate⟩ := hinv.gated before route x after hacts
  exact ⟨c, hgate.offered, hgate.dispatchKey, hgate.accepts, hgate.allowed⟩

/-! ## A confirmed request -/

/-- The state a request leaves. -/
def Gateway.next (d : Deployment) (g : Gateway) (request : Request) : Gateway :=
  match request.run d { g with acts := [] } with
  | .ok _ g' | .error _ g' => g'

theorem handles_next {d : Deployment} {g : Gateway} {request : Request} :
    Handles d g request (g.next d request) := by
  unfold Handles Gateway.next
  cases request.run d { g with acts := [] } with
  | ok u g' => exact Or.inl rfl
  | error e g' => exact Or.inr ⟨e, rfl⟩

theorem reachable_foldl {d : Deployment} {requests : List Request} {g : Gateway}
    (h : Reachable (· = {}) (Handles d) g) :
    Reachable (· = {}) (Handles d) (requests.foldl (Gateway.next d) g) := by
  induction requests generalizing g with
  | nil => exact h
  | cons request requests ih => exact ih (h.next handles_next)

def policyCheck : PlatformCapability :=
  { code := "policy.check"
    capabilityType := .policyDecision
    description := "政策核查"
    inputSchema := []
    requiredFields := []
    confirmationPolicy := .always
    permission := []
    enabled := true
    dispatchKey := "policy.check" }

def policyDeployment : Deployment where
  ttlSeconds := 300
  catalog _ := .ok ⟨[policyCheck], [⟨"policy.check", .policyDecision⟩]⟩
  handlers := ["policy.check"]
  agentHandler := false

def policySurroundings : Surroundings where
  candidates := ["policy.check"]
  output := .ok { status := .matched, capabilityCode := some "policy.check" }
  proposalId := "p1"

def policyRequests : List Request :=
  [.recognize policySurroundings { userInput := "查", principal := {} },
    .confirm policySurroundings { proposalId := "p1", action := .confirm, principal := {} }]

def policyConfirmed : Gateway := policyRequests.foldl (Gateway.next policyDeployment) {}

theorem executions_are_gated_policy :
    ∃ c : PlatformCapability, c.dispatchKey = "policy.check" ∧ c.Accepts [] := by
  have hreach : Reachable (· = {}) (Handles policyDeployment) policyConfirmed :=
    reachable_foldl (Reachable.start rfl)
  have hacts : policyConfirmed.acts = policyConfirmed.acts.dropLast ++
      .executed .handler ⟨"policy.check", "policy.check", [], {}⟩ :: [] := rfl
  obtain ⟨c, -, hkey, haccepts, -⟩ := executions_are_gated hreach hacts
  exact ⟨c, hkey, haccepts⟩

end GoAgent.Interaction
