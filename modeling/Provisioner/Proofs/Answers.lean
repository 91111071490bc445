import Provisioner.Proofs.Turns
import Provisioner.Setup.Interview

namespace Provisioner

open Provisioner.Action Setup

/-- The error is not that a value could not be stored. -/
def SetupError.Unconfigured (e : SetupError) : Prop := ∀ c, e ≠ .config c

namespace Interview

variable (i : Interview)

def about (m : Matter) : Question := ⟨m.question, m.preset, i.attempts⟩

def valuePrompt : Property → String
  | .sshKey => s!"{sshKeyMessage}: "
  | .addressPrefix => s!"{addressPrefixMessage}: "
  | .inventory => s!"{i.inventoryRequest.message}: "

/-- All that is asked for the sake of a property. An inventory may have to be made. -/
def prompts : Property → List String
  | .inventory => [(i.about .hasInventory).text, i.valuePrompt .inventory,
    (Deployment.question i.attempts).text, s!"{proxyMessage}: ",
    s!"{(monitoringRequest i.attempts).message}: "]
  | p => [i.valuePrompt p]

def validator (h : Host) : Property → Validator
  | .addressPrefix => prefixCheck
  | p => fileCheck h p

def inventoryPath : String := Files.Path.join i.workdir inventoryName

variable {i} {h : Host} {p q : Property} {text value : String}

def letter (text : String) : Option Char := text.toList[38]?

def subject : Option Char → Option Property
  | some 'S' => some .sshKey
  | some 'p' => some .addressPrefix
  | some 'b' => none
  | _ => some .inventory

theorem letter_append {a : String} {c : Char} (hc : letter a = some c) (b : String) :
    letter (a ++ b) = some c := by
  obtain ⟨hn, -⟩ := List.getElem?_eq_some_iff.mp hc
  rw [letter, String.toList_append, List.getElem?_append_left hn]
  exact hc

theorem letter_prompt {message : String} {c : Char} (hc : letter message = some c) :
    letter s!"{message}: " = some c :=
  letter_append hc _

theorem letter_question {message : String} {c : Char} (hc : letter message = some c)
    (preset : Option Bool) (attempts : Nat) :
    letter (Question.text ⟨message, preset, attempts⟩) = some c :=
  letter_append (letter_append (letter_append hc _) _) _

theorem letter_valuePrompt_inventory : letter (i.valuePrompt .inventory) = some ' ' := by
  have hm : letter "Please enter the path and name of your Ansible inventory file. " = some ' ' := by
    decide
  exact letter_prompt (letter_append hm _)

theorem subject_prompts (i : Interview) (p : Property) :
    ∀ text ∈ i.prompts p, subject (letter text) = some p := by
  cases p with
  | sshKey =>
    exact List.forall_mem_singleton.mpr (congrArg subject (letter_prompt (c := 'S') (by decide)))
  | addressPrefix =>
    have hm : letter ("Please enter the common prefix of the private IP addresses of the proxy " ++
      "hosts ") = some 'p' := letter_append (by decide) _
    exact List.forall_mem_singleton.mpr (congrArg subject (letter_prompt (letter_append hm _)))
  | inventory =>
    have hm : letter "Please enter the private IP address of your monitoring instance. " =
        some ' ' := by decide
    refine List.forall_mem_cons.mpr ⟨?_, List.forall_mem_cons.mpr ⟨?_, List.forall_mem_cons.mpr
      ⟨?_, List.forall_mem_cons.mpr ⟨?_, List.forall_mem_singleton.mpr ?_⟩⟩⟩⟩
    · exact congrArg subject (letter_question (c := 'o') (by decide) _ _)
    · exact congrArg subject letter_valuePrompt_inventory
    · exact congrArg subject (letter_question (c := 't') (by decide) _ _)
    · decide
    · exact congrArg subject (letter_prompt (letter_append hm _))

/-- Nothing that is asked for the sake of one property is asked for the sake of another. -/
theorem prompts_disjoint (hp : text ∈ i.prompts p) (hq : text ∈ i.prompts q) : p = q :=
  Option.some.inj ((i.subject_prompts p text hp).symm.trans (i.subject_prompts q text hq))

theorem useFile_not_mem : (i.about .useFile).text ∉ i.prompts p := by
  intro ht
  have hs : subject (letter (i.about .useFile).text) = none :=
    congrArg subject (letter_question (c := 'b') (by decide) _ _)
  rw [i.subject_prompts p _ ht] at hs
  cases hs

/-- What is accepted as it is entered is accepted when it is stored. -/
theorem validator_eq_none : validator h p value = none ↔ ∃ v, p.check h value = .ok v := by
  have hf (p : Property) : fileCheck h p value = none ↔ ∃ v, h.validateFile p.name value = .ok v := by
    unfold fileCheck
    cases h.validateFile p.name value with
    | ok v => exact iff_of_true rfl ⟨v, rfl⟩
    | error e => exact iff_of_false (Option.some_ne_none _) fun ⟨_, hv⟩ => nomatch hv
  cases p with
  | sshKey => exact hf .sshKey
  | inventory => exact hf .inventory
  | addressPrefix =>
    change prefixCheck value = none ↔ _
    unfold prefixCheck Property.check
    cases Net.AddressPrefix.ofString value with
    | ok net => exact iff_of_true rfl ⟨net.text, rfl⟩
    | error e => exact iff_of_false (Option.some_ne_none _) fun ⟨_, hv⟩ => nomatch hv

def Chosen (i : Interview) (h : Host) (p : Property) (ts : List Turn) (value : String) : Prop :=
  (.ask (i.valuePrompt p) (.ok value) ∈ ts ∧ value ≠ "" ∨
    p = .inventory ∧ value = i.defaultInventory) ∧ validator h p value = none

theorem Chosen.append {us : List Turn} (hc : i.Chosen h p us value) (ts : List Turn) :
    i.Chosen h p (ts ++ us) value :=
  ⟨hc.1.imp_left fun ⟨ha, hn⟩ => ⟨List.mem_append_right ts ha, hn⟩, hc.2⟩

variable {ω : Type} [Writer ω] {d : Desk ω}

theorem askRequired_asks (message what : String) (check : Validator) :
    Asks d (· = s!"{message}: ") SetupError.Unconfigured
      (fun ts v => .ask s!"{message}: " (.ok v) ∈ ts ∧ v ≠ "" ∧ check v = none)
      (i.askRequired message what check) := by
  refine (askValue_asks _ check fun _ _ => nofun).bind fun ts answer d' _ hv => ?_
  cases answer with
  | some value =>
    obtain ⟨ha, ⟨-, he⟩ | ⟨hn, hc⟩⟩ := hv value rfl
    · cases he
    · refine asks_pure ⟨?_, hn, hc⟩
      rwa [List.append_nil]
  | none =>
    refine (say_asks _ fun _ _ => nofun).bind fun _ _ _ _ _ => ?_
    refine (say_asks _ fun _ _ => nofun).bind fun _ _ _ _ _ => ?_
    exact asks_throw fun _ => nofun

theorem askSshKey_asks : Asks d (· = i.valuePrompt .sshKey) SetupError.Unconfigured
    (i.Chosen d.host .sshKey) i.askSshKey := by
  refine asks_host ((i.askRequired_asks _ _ _).mono (fun _ h => h) ?_)
  rintro ts value ⟨ha, hn, hc⟩
  exact ⟨.inl ⟨ha, hn⟩, hc⟩

theorem askAddressPrefix_asks : Asks d (· = i.valuePrompt .addressPrefix) SetupError.Unconfigured
    (i.Chosen d.host .addressPrefix) i.askAddressPrefix := by
  refine (i.askRequired_asks _ _ _).mono (fun _ h => h) ?_
  rintro ts value ⟨ha, hn, hc⟩
  exact ⟨.inl ⟨ha, hn⟩, hc⟩

theorem askExistingInventory_asks : Asks d (· = i.valuePrompt .inventory) SetupError.Unconfigured
    (i.Chosen d.host .inventory) i.askExistingInventory := by
  refine asks_host ((askValue_asks _ _ fun _ _ => nofun).bind fun ts answer d' hd hv => ?_)
  split
  · rename_i path ha
    obtain ⟨rfl, hn⟩ := Option.filter_eq_some_iff.mp ha
    obtain ⟨he, ⟨rfl, -⟩ | ⟨hn, hc⟩⟩ := hv path rfl
    · cases hn
    · refine asks_pure ⟨.inl ⟨?_, hn⟩, hc⟩
      rwa [List.append_nil]
  · split
    · rename_i hc
      exact asks_pure ⟨.inr ⟨rfl, rfl⟩, Option.isNone_iff_eq_none.mp hc⟩
    · refine (say_asks _ fun _ _ => nofun).bind fun _ _ _ _ _ => ?_
      exact asks_throw fun _ => nofun

def Made (i : Interview) (h h' : Host) (ts : List Turn) (value : String) : Prop :=
  value = i.inventoryPath ∧ ∃ content, .save value content ∈ ts ∧ h.write value content = .ok h'

/-- What an answer for a property comes to: a choice that leaves the machine alone, or an inventory
that was made. -/
def Answers (i : Interview) (d : Desk ω) (p : Property) (a : SetupOn ω String) : Prop :=
  Goes Desk.Step d a fun ts r d' =>
    (∀ t ∈ ts, t.About (· ∈ i.prompts p)) ∧ (∀ e, r = .error e → e.Unconfigured) ∧
    ∀ value, r = .ok value → d'.host = d.host ∧ i.Chosen d.host p ts value ∨
      p = .inventory ∧ i.Made d.host d'.host ts value

variable {α : Type} {allowed : String → Prop} {V : List Turn → α → Prop}

theorem answers_of_asks {a : SetupOn ω String}
    (ha : Asks d allowed SetupError.Unconfigured (i.Chosen d.host p) a)
    (hp : ∀ text, allowed text → text ∈ i.prompts p) : i.Answers d p a := by
  refine Goes.mono ha ?_
  rintro ts r d' ⟨hd, ht, he, hv⟩
  exact ⟨fun t hm => (ht t hm).about hp, he, fun value hr => .inl ⟨hd, hv value hr⟩⟩

theorem Answers.after {a : SetupOn ω α} {k : α → SetupOn ω String}
    (ha : Asks d (· ∈ i.prompts p) SetupError.Unconfigured V a)
    (hk : ∀ v d', d'.host = d.host → i.Answers d' p (k v)) : i.Answers d p (a >>= k) := by
  refine Goes.bind ha ?_ ?_
  · rintro ts v d' ⟨hd, ht, -, -⟩
    refine Goes.mono (hk v d' hd) ?_
    rintro us r d'' ⟨hu, he, hv⟩
    rw [hd] at hv
    refine ⟨List.forall_mem_append.mpr ⟨fun t hm => (ht t hm).about fun _ h => h, hu⟩, he, ?_⟩
    intro value hr
    obtain ⟨hd', hc⟩ | ⟨hp, rfl, content, hs, hw⟩ := hv value hr
    · exact .inl ⟨hd', hc.append ts⟩
    · exact .inr ⟨hp, rfl, content, List.mem_append_right ts hs, hw⟩
  · rintro ts e d' ⟨hd, ht, he, -⟩
    exact ⟨fun t hm => (ht t hm).about fun _ h => h, fun e' h => he e' (by cases h; rfl), nofun⟩

theorem say_within (text : String) : Asks d (· ∈ i.prompts p) SetupError.Unconfigured
    (fun _ _ => True) (say text) :=
  say_asks text fun _ _ => nofun

theorem settle_within {m : Matter} (hm : (i.about m).text ∈ i.prompts p) :
    Asks d (· ∈ i.prompts p) SetupError.Unconfigured (fun _ _ => True) (settle m i.attempts) :=
  (settle_asks m i.attempts fun _ _ => nofun).mono (by rintro _ rfl; exact hm) fun _ _ h => h

theorem askDeployment_asks : Asks d (· ∈ i.prompts .inventory) SetupError.Unconfigured
    (fun _ _ => True) (askDeployment i.attempts) := by
  have hq : ∀ text, text = (Deployment.question i.attempts).text → text ∈ i.prompts .inventory := by
    rintro _ rfl
    exact .tail _ (.tail _ (.head _))
  refine (Asks.outcome ((askYesNo_asks _).mono hq fun _ _ h => h)).bind fun _ answer _ _ _ => ?_
  cases answer with
  | ok b => exact asks_pure trivial
  | error e => exact (say_within _).bind fun _ _ _ _ _ => asks_pure trivial

theorem askProxies_asks (deployment : Deployment) :
    Asks d (· ∈ i.prompts .inventory) SetupError.Unconfigured (fun _ _ => True)
      (askProxies deployment) := by
  have addresses {d : Desk ω} : Asks d (· ∈ i.prompts .inventory) SetupError.Unconfigured
      (fun _ _ => True) (onTerminal
        ((Terminal.askUntilEmpty proxyMessage addressCheck).orFail SetupError.prompt)) := by
    rw [onTerminal_orFail]
    refine Asks.orFail (Asks.weaken (Asks.mono (askUntilEmpty_asks _ _) ?_ fun _ _ h => h) ?_)
    · rintro _ rfl
      exact .tail _ (.tail _ (.tail _ (.head _)))
    · exact fun _ _ => nofun
  refine (say_within _).bind fun _ _ _ _ _ => (say_within _).bind fun _ _ _ _ _ => ?_
  refine (say_within _).bind fun _ _ _ _ _ => (say_within _).bind fun _ _ _ _ _ => ?_
  refine addresses.bind fun _ proxies _ _ _ => ?_
  split
  · exact (say_within _).bind fun _ _ _ _ _ => asks_throw fun _ => nofun
  · exact asks_pure trivial

theorem askMonitoring_asks : Asks d (· ∈ i.prompts .inventory) SetupError.Unconfigured
    (fun _ _ => True) (askMonitoring i.attempts) := by
  refine Asks.bind (V := fun _ _ => True) ?_ fun _ _ _ _ _ => asks_pure trivial
  refine (askValue_asks _ _ fun _ _ => nofun).mono ?_ fun _ _ _ => trivial
  rintro _ rfl
  exact .tail _ (.tail _ (.tail _ (.tail _ (.head _))))

theorem say_quiet (text : String) : Asks d (fun _ => False) SetupError.Unconfigured
    (fun _ _ => True) (say text) :=
  say_asks text fun _ _ => nofun

theorem saveInventory_goes (path : String) (inv : Inventory) :
    Goes Desk.Step d (saveInventory path inv) fun ts r d' =>
      (∀ t ∈ ts, t.About fun _ => False) ∧ (∀ e, r = .error e → e.Unconfigured) ∧
      (r = .ok () → ∃ content, .save path content ∈ ts ∧ d.host.write path content = .ok d'.host) := by
  refine goes_host ?_
  cases hw : d.host.write path (Text.bytes inv.text) with
  | ok h =>
    refine goes_save hw (Goes.mono (say_quiet _) ?_)
    rintro ts r d' ⟨hd, ht, he, -⟩
    refine ⟨List.forall_mem_cons.mpr ⟨trivial, fun t hm => (ht t hm).about fun _ h => h⟩, he, ?_⟩
    exact fun _ => ⟨_, List.mem_cons_self, by rw [hw, hd]⟩
  | error e =>
    refine Goes.mono (Asks.bind (W := fun _ _ => False) (say_quiet _) fun _ _ _ _ _ =>
      asks_throw fun _ => nofun) ?_
    rintro ts r d' ⟨-, ht, he, hv⟩
    exact ⟨fun t hm => (ht t hm).about fun _ h => h, he, fun hr => (hv () hr).elim⟩

theorem saveInventory_answers (inv : Inventory) : i.Answers d .inventory (do
    saveInventory i.inventoryPath inv
    return i.inventoryPath) := by
  refine Goes.bind (saveInventory_goes _ inv) ?_ ?_
  · rintro ts ⟨⟩ d' ⟨ht, -, hv⟩
    refine goes_pure ?_
    rw [List.append_nil]
    refine ⟨fun t hm => (ht t hm).mono fun _ => False.elim, nofun, ?_⟩
    rintro _ ⟨⟩
    exact .inr ⟨rfl, rfl, hv rfl⟩
  · rintro ts e d' ⟨ht, he, -⟩
    refine ⟨fun t hm => (ht t hm).mono fun _ => False.elim, ?_, nofun⟩
    rintro _ ⟨⟩
    exact he e rfl

theorem generateInventory_answers :
    i.Answers d .inventory (generateInventory i.workdir i.attempts) :=
  .after (say_within _) fun _ _ _ => .after (say_within _) fun _ _ _ =>
    .after askDeployment_asks fun deployment _ _ => .after (askProxies_asks deployment) fun _ _ _ =>
    .after (say_within _) fun _ _ _ => .after askMonitoring_asks fun _ _ _ =>
    .after (say_within _) fun _ _ _ => saveInventory_answers _

theorem askInventory_answers : i.Answers d .inventory i.askInventory := by
  refine .after (settle_within List.mem_cons_self) fun hasOne _ _ => ?_
  refine .after (say_within _) fun _ _ _ => ?_
  split
  · refine answers_of_asks askExistingInventory_asks ?_
    rintro _ rfl
    exact List.mem_cons_of_mem _ List.mem_cons_self
  · exact generateInventory_answers

end Interview

end Provisioner
