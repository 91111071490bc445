import Provisioner.Proofs.Course

namespace Provisioner

namespace Site

variable {δ κ : Type} {site : Site δ κ} {config : InitConfig} {w : List Event}

/-- What leads to a removal: the only container of the name, and a yes to its removal. -/
def warrant (site : Site δ κ) (l : ContainerListing) (first : Except PromptError Bool) :
    List Event :=
  [.call (.listContainers site.settings.containerName) (.ok [l]),
    .question (site.questionOf .useExisting) first,
    .question (site.questionOf .recreate) (.ok true)]

/-- Up to a container that is ready nothing is removed but what is listed, and that after two
answers. -/
theorem Readies.removal {ls : List ContainerListing} {r : Ready} (h : site.Readies ls r w) :
    Once Call.isRemoval (fun u x => ∃ l first a, ls = [l] ∧ l.isRunning = true ∧
      site.Declines first ∧ x = .call (.removeContainer l.id) a ∧
      u = [.question (site.questionOf .useExisting) first,
        .question (site.questionOf .recreate) (.ok true)]) w := by
  cases h with
  | keep l h hw => exact .inl (hw.lacks _)
  | start l h => exact .inl (by simp [Call.isRemoval])
  | create new => exact .inl (by simp [Call.isRemoval])
  | recreate l h hw new =>
    have hn := hw.lacks Call.isRemoval
    cases hw with
    | condemned hf =>
      refine .inr ⟨_, _, _, rfl, rfl, hn, ?_, l, _, _, rfl, h, hf, rfl, rfl⟩
      simp [Call.isRemoval]

/-- The container was not to be used. Either that was entered, or no line was clear up to the last
attempt, and that counts as declined. -/
def Rejects (site : Site δ κ) (first : Except PromptError Bool) (lines after : List Bytes) : Prop :=
  (first = .ok false ∧ Enters (site.questionOf .useExisting) ["n", "no"] lines after) ∨
    (∃ n, first = .error (.noValidAnswer n)) ∧ site.settings.prompt.unansweredIsDecline = true ∧
      Exhausts (site.questionOf .useExisting) site.settings.prompt.maxAttempts lines after

theorem Declines.rejects {first : Except PromptError Bool} {lines after : List Bytes}
    (h : site.Declines first) (ha : Answered (site.questionOf .useExisting)
      (site.questionOf .useExisting).attempts first lines after) :
    site.Rejects first lines after := by
  obtain rfl | ⟨⟨n, rfl⟩, hs⟩ := h
  · exact .inl ⟨rfl, ha.enters nofun⟩
  · exact .inr ⟨⟨n, rfl⟩, hs, ha.exhausts⟩

/-- A run removes one container at most. It is the one that was listed, alone and as running; a no
was entered or counts as entered, and after that a yes was entered to its removal. -/
theorem removal_is_confirmed {ω : Type} [Writer ω] {terminal : κ → TerminalOn ω}
    (hc : site.console.Prompts terminal) (config : InitConfig) (s : Session δ κ)
    {u v : List Event} {id : String} {a : Reply Unit}
    (h : ((site.run config).apply s).2.events =
      s.events ++ (u ++ .call (.removeContainer id) a :: v)) :
    Lacks Call.isRemoval (u ++ v) ∧ ∃ before l first rest after,
      u = before ++ site.warrant l first ∧
      l.id = id ∧ l.isRunning = true ∧
      site.Rejects first (terminal s.console).lines rest ∧
      Enters (site.questionOf .recreate) ["y", "yes"] rest after := by
  obtain ⟨ms, hp, ho⟩ := run_once Call.isRemoval_of_changes Readies.removal config s
  have ht : recorded (incidents ms) = u ++ .call (.removeContainer id) a :: v :=
    List.append_cancel_left (hp.events.symm.trans h)
  have hl := hp.heard hc
  rw [ht] at ho hl
  obtain ⟨hu, hv, before, _, _, _, hb, rfl, hx, l, first, _, rfl, hr, hf, rfl, rfl⟩ := ho.place rfl
  obtain rfl : l.id = id := Call.removeContainer.inj (Sum.inl.inj hx)
  obtain ⟨lines, hl, hl'⟩ := (List.append_assoc .. ▸ hl).split
  obtain rfl := hl.of_calls (List.filter_eq_self.mp hb)
  obtain ⟨rest, h₁, hl'⟩ := hl'.of_call.of_question
  obtain ⟨after, h₂, -⟩ := hl'.of_question
  exact ⟨lacks_append.mpr ⟨hu, hv⟩, before, l, first, _, _, rfl, rfl, hr, hf.rejects h₁,
    h₂.enters nofun⟩

theorem rehearsal_removes :
    ∃ u id a v, ((rehearsal.run rehearsalConfig).apply rehearsalStart).2.events =
        rehearsalStart.events ++ (u ++ .call (.removeContainer id) a :: v) ∧
      Lacks Call.isRemoval (u ++ v) ∧ ∃ before l first rest after,
        u = before ++ rehearsal.warrant l first ∧ l.id = id ∧ l.isRunning = true ∧
        rehearsal.Rejects first rehearsalStart.console.lines rest ∧
        Enters (rehearsal.questionOf .recreate) ["y", "yes"] rest after := by
  have hr : ¬Lacks Call.isRemoval ((rehearsal.run rehearsalConfig).apply rehearsalStart).2.events := by
    decide +kernel
  obtain ⟨u, c, a, v, h, hc⟩ := exists_call hr
  obtain ⟨id, rfl⟩ := Call.eq_remove hc
  exact ⟨u, id, a, v, h, removal_is_confirmed Console.screen_prompts rehearsalConfig rehearsalStart h⟩

end Site

end Provisioner
