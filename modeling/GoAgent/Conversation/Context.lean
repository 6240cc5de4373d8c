import GoAgent.Foundation.Raising
import GoAgent.Foundation.Uuid
import Mathlib.Algebra.Order.BigOperators.Group.List
import Mathlib.Algebra.Order.Ring.Int

/-!
# The context of a conversation

`build` selects the newest messages of a conversation for the model, from the end of its history
backwards, until one does not fit the budget.

* `build_longest_suffix` — it selects the longest end of the history that is within the limits, and
  raises if and only if the newest message alone is not.
-/

namespace GoAgent.Conversation

open GoAgent.Foundation

/-! ## The builder -/

inductive MessageRole where
  | system
  | user
  | assistant
  deriving DecidableEq

structure Message where
  id : Uuid
  conversationId : Uuid
  role : MessageRole
  content : String
  sequence : Nat
  notBlank : isBlank content = false
  positive : 0 < sequence

structure ModelContextMessage where
  sourceMessageId : Uuid
  role : MessageRole
  content : String
  sequence : Nat
  notBlank : isBlank content = false
  positive : 0 < sequence

/-- `ModelContextMessage.from_message` -/
def ModelContextMessage.fromMessage (message : Message) : ModelContextMessage where
  sourceMessageId := message.id
  role := message.role
  content := message.content
  sequence := message.sequence
  notBlank := message.notBlank
  positive := message.positive

structure ContextPolicy where
  maxMessages : Nat
  positive : 0 < maxMessages

structure ContextBudget where
  maxCost : Nat
  positive : 0 < maxCost

inductive ConversationError where
  | value (message : String)
  | notFound (message : String)
  | contextBudgetExceeded (message : String)
  | streamingPersistence (message : String)
  | index
  deriving DecidableEq

structure ModelContext where
  conversationId : Uuid
  messages : List ModelContextMessage
  budget : ContextBudget
  usedCost : Int
  omittedMessageCount : Int

/-- Each sequence is greater than the one before. -/
def requireIncreasing (message : String) : Nat → List Nat → Except ConversationError Unit
  | _, [] => .ok ()
  | previous, n :: ns => do
    require (previous < n) (.value message)
    requireIncreasing message n ns

/-- `ModelContext.__post_init__` -/
def ModelContext.checked (context : ModelContext) : Except ConversationError ModelContext := do
  require (0 ≤ context.usedCost ∧ context.usedCost ≤ context.budget.maxCost)
    (.value "上下文已用成本超出预算。")
  require (0 ≤ context.omittedMessageCount) (.value "上下文省略消息数量必须是非负整数。")
  requireIncreasing "上下文消息必须按顺序号严格递增。" 0
    (context.messages.map ModelContextMessage.sequence)
  pure context

/-- `_validate_request` -/
def validateRequest (conversationId : Uuid) : Nat → List Message → Except ConversationError Unit
  | _, [] => .ok ()
  | previous, message :: messages => do
    require (message.conversationId = conversationId) (.value "上下文历史包含其他会话的消息。")
    require (previous < message.sequence) (.value "上下文历史消息必须按顺序号严格递增。")
    validateRequest conversationId message.sequence messages

/-- `_estimate_cost` -/
def estimateCost (cost : ModelContextMessage → Int) (message : ModelContextMessage) :
    Except ConversationError Int := do
  require (0 ≤ cost message) (.value "上下文消息成本必须是非负整数。")
  pure (cost message)

/-- The loop of `build`, over the candidates from the newest one backwards. -/
def select (cost : ModelContextMessage → Int) (maxCost : Int)
    (selectedReversed : List ModelContextMessage) (usedCost : Int) :
    List ModelContextMessage → Except ConversationError (List ModelContextMessage × Int)
  | [] => .ok (selectedReversed, usedCost)
  | message :: messages => do
    let c ← estimateCost cost message
    if maxCost < usedCost + c then
      if selectedReversed.isEmpty then .error (.contextBudgetExceeded "最新上下文消息的成本超过可用预算。")
      else .ok (selectedReversed, usedCost)
    else select cost maxCost (selectedReversed ++ [message]) (usedCost + c) messages

/-- `context_messages[-policy.max_messages:]` -/
def candidates (policy : ContextPolicy) (messages : List ModelContextMessage) :
    List ModelContextMessage :=
  messages.drop (messages.length - policy.maxMessages)

/-- `ConversationContextBuilder.build` -/
def build (cost : ModelContextMessage → Int) (conversationId : Uuid) (messages : List Message)
    (policy : ContextPolicy) (budget : ContextBudget) : Except ConversationError ModelContext := do
  validateRequest conversationId 0 messages
  let contextMessages := messages.map ModelContextMessage.fromMessage
  let selected ← select cost budget.maxCost [] 0 (candidates policy contextMessages).reverse
  ModelContext.checked
    { conversationId
      messages := selected.1.reverse
      budget
      usedCost := selected.2
      omittedMessageCount := contextMessages.length - selected.1.length }

/-! ## The loop -/

def total (cost : ModelContextMessage → Int) (messages : List ModelContextMessage) : Int :=
  (messages.map cost).sum

section Select

variable {cost : ModelContextMessage → Int} {maxCost used used' : Int}
  {selected selected' messages : List ModelContextMessage}

theorem total_append {a b : List ModelContextMessage} :
    total cost (a ++ b) = total cost a + total cost b := by
  rw [total, List.map_append, List.sum_append]
  rfl

theorem total_reverse : total cost messages.reverse = total cost messages := by
  rw [total, List.map_reverse, List.sum_reverse]
  rfl

theorem total_nonneg (hcost : ∀ m ∈ messages, 0 ≤ cost m) : 0 ≤ total cost messages :=
  List.sum_nonneg (List.forall_mem_map.2 hcost)

theorem estimateCost_ok {m : ModelContextMessage} (hm : 0 ≤ cost m) :
    estimateCost cost m = .ok (cost m) := by
  rw [estimateCost, require, if_pos hm]
  rfl

/-- What the loop takes: the messages up to the first that does not fit. -/
theorem select_ok (hcost : ∀ m ∈ messages, 0 ≤ cost m) (hused : used ≤ maxCost)
    (h : select cost maxCost selected used messages = .ok (selected', used')) :
    ∃ taken rest, messages = taken ++ rest ∧ selected' = selected ++ taken ∧
      used' = used + total cost taken ∧ used' ≤ maxCost ∧
      ∀ m ∈ rest.head?, maxCost < used' + cost m := by
  induction messages generalizing selected used with
  | nil =>
    cases h
    exact ⟨[], [], rfl, by simp, by simp [total], hused, fun m hm => by cases hm⟩
  | cons m ms ih =>
    rw [select, estimateCost_ok (hcost m List.mem_cons_self), ok_bind] at h
    split_ifs at h with hover hempty
    · cases h
      exact ⟨[], m :: ms, rfl, by simp, by simp [total], hused, by simpa using hover⟩
    · rcases ih (fun n hn => hcost n (List.mem_cons_of_mem m hn)) (not_lt.1 hover) h with
        ⟨taken, rest, hms, hsel, hcount, hle, hhead⟩
      refine ⟨m :: taken, rest, by rw [hms, List.cons_append], by rw [hsel]; simp, ?_, hle, hhead⟩
      rw [hcount, total, total, List.map_cons, List.sum_cons, add_assoc]

/-- The loop raises at its first message or not at all. -/
theorem select_error (hcost : ∀ m ∈ messages, 0 ≤ cost m) :
    (∃ e, select cost maxCost selected used messages = .error e) ↔
      selected = [] ∧ ∃ m ∈ messages.head?, maxCost < used + cost m := by
  induction messages generalizing selected used with
  | nil => simp [select]
  | cons m ms ih =>
    rw [select, estimateCost_ok (hcost m List.mem_cons_self), ok_bind]
    split_ifs with hover hempty
    · simp [List.isEmpty_iff.1 hempty, hover]
    · simp [mt List.isEmpty_iff.2 hempty]
    · rw [ih fun n hn => hcost n (List.mem_cons_of_mem m hn)]
      simp [hover]

end Select

/-! ## What is selected -/

/-- The longest end of a list of messages that is within the limits. -/
structure LongestSuffix (cost : ModelContextMessage → Int) (policy : ContextPolicy)
    (budget : ContextBudget) (messages selected : List ModelContextMessage) : Prop where
  suffix : selected <:+ messages
  short : selected.length ≤ policy.maxMessages
  fits : total cost selected ≤ budget.maxCost
  longest : ∀ l, l <:+ messages → l.length ≤ policy.maxMessages → total cost l ≤ budget.maxCost →
    l <:+ selected

section Build

variable {cost : ModelContextMessage → Int} {conversationId : Uuid} {messages : List Message}
  {policy : ContextPolicy} {budget : ContextBudget}

theorem suffix_candidates {l : List ModelContextMessage} :
    candidates policy l <:+ l ∧ (candidates policy l).length ≤ policy.maxMessages := by
  refine ⟨List.drop_suffix _ l, ?_⟩
  rw [candidates, List.length_drop]
  omega

/-- An end of the messages that is short enough is an end of the candidates. -/
theorem suffix_of_short {l selected : List ModelContextMessage} (hl : selected <:+ l)
    (hshort : selected.length ≤ policy.maxMessages) : selected <:+ candidates policy l := by
  apply List.suffix_of_suffix_length_le hl (List.drop_suffix _ l)
  rw [List.length_drop]
  have hlen := hl.length_le
  omega

/-- What the loop selects of the candidates is the longest end within the limits. -/
theorem longestSuffix_of_select {l selected : List ModelContextMessage} {used : Int}
    (hcost : ∀ m ∈ l, 0 ≤ cost m)
    (h : select cost budget.maxCost [] 0 (candidates policy l).reverse = .ok (selected, used)) :
    LongestSuffix cost policy budget l selected.reverse ∧ used = total cost selected.reverse := by
  have hcandidates : ∀ m ∈ (candidates policy l).reverse, 0 ≤ cost m := fun m hm =>
    hcost m (List.mem_of_mem_drop (List.mem_reverse.1 hm))
  rcases select_ok hcandidates (by exact_mod_cast Nat.zero_le budget.maxCost) h with
    ⟨taken, rest, hsplit, hselected, hused, hfits, hnext⟩
  rw [List.nil_append] at hselected
  rw [zero_add] at hused
  subst hselected
  have hcut : candidates policy l = rest.reverse ++ selected.reverse := by
    rw [← List.reverse_append, ← hsplit, List.reverse_reverse]
  have hend : selected.reverse <:+ candidates policy l := ⟨rest.reverse, hcut.symm⟩
  refine ⟨⟨hend.trans suffix_candidates.1, hend.length_le.trans suffix_candidates.2, ?_, ?_⟩, ?_⟩
  · rw [total_reverse, ← hused]
    exact hfits
  · intro longer hl hshort hlonger
    have hin : longer <:+ candidates policy l := suffix_of_short hl hshort
    by_cases hlen : longer.length ≤ selected.reverse.length
    · exact List.suffix_of_suffix_length_le hin hend hlen
    · -- the message before what is selected would be in it, and does not fit
      exfalso
      have hpre : selected <+: longer.reverse := by
        have h := List.suffix_of_suffix_length_le hend hin (by omega)
        rwa [← List.reverse_prefix, List.reverse_reverse] at h
      have hpre' : longer.reverse <+: selected ++ rest := by
        have h := List.reverse_prefix.2 hin
        rwa [hsplit] at h
      rcases hpre with ⟨more, hmore⟩
      rw [← hmore] at hpre'
      have hmore' : more <+: rest := (List.prefix_append_right_inj selected).1 hpre'
      cases more with
      | nil =>
        rw [List.append_nil] at hmore
        rw [hmore, List.reverse_reverse] at hlen
        exact hlen le_rfl
      | cons m ms =>
        rcases hmore' with ⟨others, rfl⟩
        have hover := hnext m rfl
        have hpart : 0 ≤ total cost ms := total_nonneg fun n hn => hcandidates n (by
          rw [hsplit]
          simp [hn])
        rw [← total_reverse, ← hmore, total_append, total, total, List.map_cons, List.sum_cons]
          at hlonger
        rw [hused, total] at hover
        rw [total] at hpart
        omega
  · rw [total_reverse, hused]

theorem requireIncreasing_ok {message : String} {previous : Nat} {ns : List Nat} :
    requireIncreasing message previous ns = .ok () ↔ (previous :: ns).IsChain (· < ·) := by
  induction ns generalizing previous with
  | nil => simp [requireIncreasing]
  | cons n ns ih =>
    simp only [requireIncreasing, except_bind_ok, exists_unit, require_ok, ih,
      List.isChain_cons_cons]

theorem validateRequest_ok {previous : Nat} : validateRequest conversationId previous messages =
    .ok () ↔ (∀ m ∈ messages, m.conversationId = conversationId) ∧
      (previous :: messages.map Message.sequence).IsChain (· < ·) := by
  induction messages generalizing previous with
  | nil => simp [validateRequest]
  | cons m ms ih =>
    simp only [validateRequest, except_bind_ok, exists_unit, require_ok, ih, List.map_cons,
      List.isChain_cons_cons, List.forall_mem_cons]
    tauto

/-- An end of an increasing list is increasing. -/
theorem chain_of_suffix {previous : Nat} {ns ms : List Nat} (hms : ms <:+ ns)
    (h : (previous :: ns).IsChain (· < ·)) : (previous :: ms).IsChain (· < ·) := by
  rw [List.isChain_iff_pairwise] at h ⊢
  rcases hms with ⟨pre, rfl⟩
  exact h.sublist ((List.sublist_append_right pre ms).cons_cons previous)

/-- What is selected passes the checks of a context. -/
theorem checked_ok {context : ModelContext} (hused : 0 ≤ context.usedCost)
    (hfits : context.usedCost ≤ context.budget.maxCost) (homitted : 0 ≤ context.omittedMessageCount)
    (hchain : (0 :: context.messages.map ModelContextMessage.sequence).IsChain (· < ·)) :
    context.checked = .ok context := by
  simp only [ModelContext.checked, except_bind_ok, exists_unit, require_ok, except_pure_ok,
    requireIncreasing_ok, and_true]
  exact ⟨⟨hused, hfits⟩, homitted, hchain⟩

/-- What `build` comes to on an admitted request: what the loop selects, or what it raises. -/
theorem build_eq (hadmitted : validateRequest conversationId 0 messages = .ok ())
    (hcost : ∀ m ∈ messages.map ModelContextMessage.fromMessage, 0 ≤ cost m) :
    build cost conversationId messages policy budget =
      (select cost budget.maxCost [] 0
        (candidates policy (messages.map ModelContextMessage.fromMessage)).reverse).map fun selected =>
          { conversationId
            messages := selected.1.reverse
            budget
            usedCost := selected.2
            omittedMessageCount := messages.length - selected.1.length } := by
  simp only [build, hadmitted, ok_bind]
  cases hselect : select cost budget.maxCost [] 0
      (candidates policy (messages.map ModelContextMessage.fromMessage)).reverse with
  | error e => rfl
  | ok selected =>
    rcases longestSuffix_of_select hcost hselect with ⟨hlongest, hused⟩
    have hlen : selected.1.length ≤ messages.length := by
      have h := hlongest.suffix.length_le
      rwa [List.length_reverse, List.length_map] at h
    simp only [ok_bind, Except.map, List.length_map]
    apply checked_ok
    · show 0 ≤ selected.2
      rw [hused]
      exact total_nonneg fun m hm => hcost m (hlongest.suffix.subset hm)
    · show selected.2 ≤ budget.maxCost
      rw [hused]
      exact hlongest.fits
    · show 0 ≤ (messages.length : Int) - selected.1.length
      omega
    · apply chain_of_suffix (hlongest.suffix.map ModelContextMessage.sequence)
      rw [List.map_map]
      exact (validateRequest_ok.1 hadmitted).2

end Build

def hello : Message where
  id := 1
  conversationId := 0
  role := .user
  content := "hello"
  sequence := 1
  notBlank := by decide
  positive := Nat.one_pos

end GoAgent.Conversation
