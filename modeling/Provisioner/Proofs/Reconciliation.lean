import Provisioner.Proofs.Words
import Provisioner.Provision.Lifecycle

namespace Provisioner.Site

variable {δ κ : Type} {site : Site δ κ}

def Declines (site : Site δ κ) (a : Except PromptError Bool) : Prop :=
  a = .ok false ∨
    (∃ n, a = .error (.noValidAnswer n)) ∧ site.settings.prompt.unansweredIsDecline = true

inductive Decides (site : Site δ κ) (d : Decision) : Words Bool
  | yes : Decides site d true [.question (site.questionOf d) (.ok true)]
  | no {a : Except PromptError Bool} (h : site.Declines a) :
    Decides site d false [.question (site.questionOf d) a]

inductive DecidesRemoval (site : Site δ κ) : Words Bool
  | kept : DecidesRemoval site false [.question (site.questionOf .useExisting) (.ok true)]
  | spared {a b : Except PromptError Bool} (ha : site.Declines a) (hb : site.Declines b) :
    DecidesRemoval site false
      [.question (site.questionOf .useExisting) a, .question (site.questionOf .recreate) b]
  | condemned {a : Except PromptError Bool} (ha : site.Declines a) :
    DecidesRemoval site true
      [.question (site.questionOf .useExisting) a,
        .question (site.questionOf .recreate) (.ok true)]

inductive Steps (site : Site δ κ) : Phase → Words LifecycleState
  | create (new : String) :
    Steps site .absent (.pending (.created new)) [.call (.createContainer site.spec) (.ok new)]
  | startCreated (id : String) :
    Steps site (.created id) (.pending (.started id)) [.call (.startContainer id) (.ok ())]
  | startStopped (id : String) :
    Steps site (.existsStopped id) (.pending (.started id)) [.call (.startContainer id) (.ok ())]
  | finish (id : String) : Steps site (.started id) (.ready (.fresh id)) []
  | keep (id : String) {w : List Event} (h : site.DecidesRemoval false w) :
    Steps site (.existsRunning id) (.ready (.reuse id)) w
  | remove (id : String) {w : List Event} (h : site.DecidesRemoval true w) :
    Steps site (.existsRunning id) (.pending .absent)
      (w ++ [.call (.removeContainer id) (.ok ())])

inductive Reconciles (site : Site δ κ) : LifecycleState → Words Ready
  | ready (r : Ready) : Reconciles site (.ready r) r []
  | step {p : Phase} {st : LifecycleState} {r : Ready} {w x : List Event} (h : site.Steps p st w)
    (h' : Reconciles site st r x) : Reconciles site (.pending p) r (w ++ x)

inductive Readies (site : Site δ κ) : List ContainerListing → Words Ready
  | keep (l : ContainerListing) (h : l.isRunning = true) {w : List Event}
    (hw : site.DecidesRemoval false w) : Readies site [l] (.reuse l.id) w
  | start (l : ContainerListing) (h : l.isRunning = false) :
    Readies site [l] (.fresh l.id) [.call (.startContainer l.id) (.ok ())]
  | create (new : String) :
    Readies site [] (.fresh new)
      [.call (.createContainer site.spec) (.ok new), .call (.startContainer new) (.ok ())]
  | recreate (l : ContainerListing) (h : l.isRunning = true) {w : List Event}
    (hw : site.DecidesRemoval true w) (new : String) :
    Readies site [l] (.fresh new)
      (w ++ [.call (.removeContainer l.id) (.ok ()),
        .call (.createContainer site.spec) (.ok new), .call (.startContainer new) (.ok ())])

theorem decide_keeps (d : Decision) : site.Keeps (site.decide d) (site.Decides d) := by
  refine performs_ask fun a => ?_
  match a with
  | .ok true => exact performs_pure (.ok .yes)
  | .ok false => exact performs_pure (.ok (.no (.inl rfl)))
  | .error (.noValidAnswer n) =>
    by_cases h : site.settings.prompt.unansweredIsDecline
    · simp only [h, if_true]
      exact performs_pure (.ok (.no (.inr ⟨⟨n, rfl⟩, h⟩)))
    · simp only [h]
      exact performs_throw (.error .yes (agrees_question _ _ _ []))
  | .error (.io cause) => exact performs_throw (.error .yes (agrees_question _ _ _ []))

theorem sayKept_performs : site.Performs site.sayKept (Shown .output) := say_performs _

theorem confirmRemoval_keeps : site.Keeps site.confirmRemoval (site.Decides .recreate) := by
  refine ((decide_keeps .recreate).seq (X := fun b b' w => b' = b ∧ w = []) fun b => ?_).mono ?_
  · cases b with
    | true => exact keeps_pure ⟨rfl, rfl⟩
    | false => exact .afterShowing sayKept_performs (keeps_pure ⟨rfl, rfl⟩)
  · rintro b w ⟨_, w, _, h, ⟨rfl, rfl⟩, rfl⟩
    rwa [List.append_nil]

theorem decideRemoval_keeps : site.Keeps site.decideRemoval site.DecidesRemoval := by
  refine .afterShowing (say_performs _) ?_
  refine ((decide_keeps .useExisting).seq (X := fun
    | true => fun b w => b = false ∧ w = []
    | false => site.Decides .recreate) fun b => ?_).mono ?_
  · cases b with
    | true => exact .afterShowing sayKept_performs (keeps_pure ⟨rfl, rfl⟩)
    | false => exact .afterShowing (say_performs _) confirmRemoval_keeps
  · rintro b w ⟨_, w₁, w₂, h₁, h₂, rfl⟩
    cases h₁ with
    | yes =>
      obtain ⟨rfl, rfl⟩ := h₂
      exact .kept
    | no ha =>
      cases h₂ with
      | yes => exact .condemned ha
      | no hb => exact .spared ha hb

theorem createContainer_keeps : site.Keeps site.createContainer
    fun new w => w = [.call (.createContainer site.spec) (.ok new)] := by
  refine (Keeps.request (told_call (.createContainer site.spec)) (fun _ => rfl) (fun _ _ => rfl)
    (X := fun v u w => u = v ∧ w = []) fun v => ?_).mono ?_
  · exact .afterShowing (say_performs _) (keeps_pure ⟨rfl, rfl⟩)
  · rintro new w ⟨_, _, ⟨rfl, rfl⟩, rfl⟩
    rfl

theorem startContainer_keeps (id : String) : site.Keeps (site.startContainer id)
    fun _ w => w = [.call (.startContainer id) (.ok ())] :=
  .replyAndShow (told_call (.startContainer id)) (fun _ => rfl) (fun _ _ => rfl) (say_performs _)

theorem removeContainer_keeps (id : String) : site.Keeps (site.removeContainer id)
    fun _ w => w = [.call (.removeContainer id) (.ok ())] :=
  .replyAndShow (told_call (.removeContainer id)) (fun _ => rfl) (fun _ _ => rfl) (say_performs _)

theorem removeIfDecided_keeps (id : String) :
    site.Keeps (site.step (.existsRunning id)) fun next w =>
      site.Steps (.existsRunning id) next.state w := by
  rw [step]
  refine (decideRemoval_keeps.seq (X := fun
    | true => fun next w => next.state = .pending .absent ∧
      w = [.call (.removeContainer id) (.ok ())]
    | false => fun next w => next.state = .ready (.reuse id) ∧ w = []) fun b => ?_).mono ?_
  · cases b with
    | true =>
      refine (removeContainer_keeps id).andYield.mono ?_
      rintro next w ⟨_, rfl, rfl⟩
      exact ⟨rfl, rfl⟩
    | false => exact keeps_pure ⟨rfl, rfl⟩
  · rintro ⟨st, hl⟩ w ⟨b, w₁, w₂, h₁, h₂, rfl⟩
    cases b with
    | true =>
      obtain ⟨rfl, rfl⟩ := h₂
      exact .remove id h₁
    | false =>
      obtain ⟨rfl, rfl⟩ := h₂
      rw [List.append_nil]
      exact .keep id h₁

theorem step_keeps (p : Phase) :
    site.Keeps (site.step p) fun next w => site.Steps p next.state w := by
  cases p with
  | absent =>
    refine createContainer_keeps.andYield.mono ?_
    rintro _ w ⟨new, rfl, rfl⟩
    exact .create new
  | created id =>
    refine (startContainer_keeps id).andYield.mono ?_
    rintro _ w ⟨_, rfl, rfl⟩
    exact .startCreated id
  | existsStopped id =>
    refine (startContainer_keeps id).andYield.mono ?_
    rintro _ w ⟨_, rfl, rfl⟩
    exact .startStopped id
  | started id => exact keeps_pure (.finish id)
  | existsRunning id => exact removeIfDecided_keeps id

theorem reconcile_keeps (st : LifecycleState) :
    site.Keeps (site.reconcile st) (site.Reconciles st) := by
  induction hn : st.rank using Nat.strongRecOn generalizing st with
  | ind n ih =>
  cases st with
  | ready r =>
    rw [reconcile]
    exact keeps_pure (.ready r)
  | pending p =>
    rw [reconcile]
    refine ((step_keeps p).seq (X := fun next => site.Reconciles next.state) fun next =>
      ih _ (hn ▸ next.lower) next.state rfl).mono ?_
    rintro r w ⟨next, w₁, w₂, h₁, h₂, rfl⟩
    exact .step h₁ h₂

variable {r : Ready} {w : List Event}

theorem Reconciles.of_ready {r' : Ready} (h : site.Reconciles (.ready r') r w) :
    r = r' ∧ w = [] := by
  cases h with
  | ready => exact ⟨rfl, rfl⟩

theorem Reconciles.of_started {id : String} (h : site.Reconciles (.pending (.started id)) r w) :
    r = .fresh id ∧ w = [] := by
  cases h with
  | step hs h =>
    cases hs with
    | finish => exact h.of_ready

theorem Reconciles.of_created {id : String} (h : site.Reconciles (.pending (.created id)) r w) :
    r = .fresh id ∧ w = [.call (.startContainer id) (.ok ())] := by
  cases h with
  | step hs h =>
    cases hs with
    | startCreated =>
      obtain ⟨rfl, rfl⟩ := h.of_started
      exact ⟨rfl, rfl⟩

theorem Reconciles.of_existsStopped {id : String}
    (h : site.Reconciles (.pending (.existsStopped id)) r w) :
    r = .fresh id ∧ w = [.call (.startContainer id) (.ok ())] := by
  cases h with
  | step hs h =>
    cases hs with
    | startStopped =>
      obtain ⟨rfl, rfl⟩ := h.of_started
      exact ⟨rfl, rfl⟩

theorem Reconciles.of_absent (h : site.Reconciles (.pending .absent) r w) :
    ∃ new, r = .fresh new ∧ w =
      [.call (.createContainer site.spec) (.ok new), .call (.startContainer new) (.ok ())] := by
  cases h with
  | step hs h =>
    cases hs with
    | create new =>
      obtain ⟨rfl, rfl⟩ := h.of_created
      exact ⟨new, rfl, rfl⟩

theorem Reconciles.readies_nil (h : site.Reconciles (.ofRecord none) r w) :
    site.Readies [] r w := by
  obtain ⟨new, rfl, rfl⟩ := h.of_absent
  exact .create new

theorem Reconciles.readies_one {l : ContainerListing} {name : String}
    (h : site.Reconciles (.ofRecord (some (l.record name))) r w) : site.Readies [l] r w := by
  cases hl : l.isRunning with
  | false =>
    have hs : LifecycleState.ofRecord (some (l.record name)) = .pending (.existsStopped l.id) := by
      simp [LifecycleState.ofRecord, ContainerListing.record, hl]
    obtain ⟨rfl, rfl⟩ := (hs ▸ h).of_existsStopped
    exact .start l hl
  | true =>
    have hs : LifecycleState.ofRecord (some (l.record name)) = .pending (.existsRunning l.id) := by
      simp [LifecycleState.ofRecord, ContainerListing.record, hl]
    rw [hs] at h
    cases h with
    | step hs h =>
      cases hs with
      | keep _ hw =>
        obtain ⟨rfl, rfl⟩ := h.of_ready
        rw [List.append_nil]
        exact .keep l hl hw
      | remove _ hw =>
        obtain ⟨new, rfl, rfl⟩ := h.of_absent
        rw [List.append_assoc]
        exact .recreate l hl hw new

end Provisioner.Site
