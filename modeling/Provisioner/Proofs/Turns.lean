import Provisioner.Proofs.Refusals
import Provisioner.Proofs.Trails
import Provisioner.Setup.Desk

namespace Provisioner

open Provisioner.Action

inductive Turn where
  | ask (text : String) (answer : Except IoError String)
  | tell (text : String) (result : Except IoError Unit)
  | save (path : String) (content : Bytes)

namespace Turn

/-- Nothing is saved, and only what is allowed is asked. -/
def Within (allowed : String → Prop) : Turn → Prop
  | .ask text _ => allowed text
  | .tell .. => True
  | .save .. => False

def About (allowed : String → Prop) : Turn → Prop
  | .ask text _ => allowed text
  | .tell .. | .save .. => True

theorem Within.mono {allowed allowed' : String → Prop} {t : Turn} (h : t.Within allowed)
    (ha : ∀ text, allowed text → allowed' text) : t.Within allowed' := by
  cases t with
  | ask text r => exact ha text h
  | tell text r => trivial
  | save => cases h

theorem Within.about {allowed allowed' : String → Prop} {t : Turn} (h : t.Within allowed)
    (ha : ∀ text, allowed text → allowed' text) : t.About allowed' := by
  cases t with
  | ask text r => exact ha text h
  | tell | save => trivial

theorem About.mono {allowed allowed' : String → Prop} {t : Turn} (h : t.About allowed)
    (ha : ∀ text, allowed text → allowed' text) : t.About allowed' := by
  cases t with
  | ask text r => exact ha text h
  | tell | save => trivial

end Turn

inductive Desk.Step {ω : Type} [Writer ω] : Desk ω → Turn → Desk ω → Prop
  | ask (text : String) (d : Desk ω) :
    Step d (.ask text ((Terminal.ask text).apply d.terminal).1)
      { d with terminal := ((Terminal.ask text).apply d.terminal).2 }
  | tell (text : String) (d : Desk ω) :
    Step d (.tell text ((Terminal.write text).apply d.terminal).1)
      { d with terminal := ((Terminal.write text).apply d.terminal).2 }
  | save {d : Desk ω} {path : String} {content : Bytes} {h : Host}
    (hw : d.host.write path content = .ok h) : Step d (.save path content) { d with host := h }

namespace Setup

variable {ω ε ε' α β : Type}

theorem onTerminal_pure (v : α) : onTerminal (pure v : Action (TerminalOn ω) ε α) = pure v :=
  Action.ext fun _ => rfl

theorem onTerminal_throw (e : ε) : onTerminal (throw e : Action (TerminalOn ω) ε α) = throw e :=
  Action.ext fun _ => rfl

theorem onTerminal_bind (a : Action (TerminalOn ω) ε α) (k : α → Action (TerminalOn ω) ε β) :
    onTerminal (a >>= k) = onTerminal a >>= fun v => onTerminal (k v) := by
  refine Action.ext fun d => ?_
  have h (b : Action (TerminalOn ω) ε β) (d : Desk ω) : (onTerminal b).apply d =
      ((b.apply d.terminal).1, { d with terminal := (b.apply d.terminal).2 }) := rfl
  have ha : (onTerminal a).apply d =
      ((a.apply d.terminal).1, { d with terminal := (a.apply d.terminal).2 }) := rfl
  rw [h, apply_bind, apply_bind, ha]
  rcases a.apply d.terminal with ⟨e | v, t⟩ <;> rfl

theorem onTerminal_orFail (a : Action (TerminalOn ω) ε α) (f : ε → ε') :
    onTerminal (a.orFail f) = (onTerminal a).orFail f := by
  refine Action.ext fun d => ?_
  rw [apply_orFail]
  exact congrArg (fun x : Except ε' α × TerminalOn ω => (x.1, { d with terminal := x.2 }))
    (apply_orFail a f d.terminal)

variable [Writer ω] {d : Desk ω} {Q : List Turn → Except ε α → Desk ω → Prop}

theorem goes_ask {text : String} {Q : List Turn → Except IoError String → Desk ω → Prop}
    (h : ∀ r d', d'.host = d.host → Q [.ask text r] r d') :
    Goes Desk.Step d (onTerminal (Terminal.ask text)) Q :=
  goes_of_step (.ask text d) (h _ _ rfl)

theorem goes_tell {text : String} {Q : List Turn → Except IoError Unit → Desk ω → Prop}
    (h : ∀ r d', d'.host = d.host → Q [.tell text r] r d') :
    Goes Desk.Step d (onTerminal (Terminal.write text)) Q :=
  goes_of_step (.tell text d) (h _ _ rfl)

theorem goes_host {k : Host → Action (Desk ω) ε α} (h : Goes Desk.Step d (k d.host) Q) :
    Goes Desk.Step d (host >>= k) Q := h

theorem goes_save {h : Host} {k : PUnit → Action (Desk ω) ε α} {path : String} {content : Bytes}
    (hw : d.host.write path content = .ok h)
    (hk : Goes Desk.Step { d with host := h } (k ⟨⟩) fun ts r d' =>
      Q (.save path content :: ts) r d') :
    Goes Desk.Step d ((modify fun d => { d with host := h }) >>= k) Q := by
  obtain ⟨ts, ht, hr⟩ := hk
  exact ⟨.save path content :: ts, .cons (.save hw) ht, hr⟩

/-- The action asks only what is allowed and saves nothing. Its errors are among `E`, and `V` holds
of what it comes to. -/
def Asks (d : Desk ω) (allowed : String → Prop) (E : ε → Prop) (V : List Turn → α → Prop)
    (a : Action (Desk ω) ε α) : Prop :=
  Goes Desk.Step d a fun ts r d' => d'.host = d.host ∧ (∀ t ∈ ts, t.Within allowed) ∧
    (∀ e, r = .error e → E e) ∧ ∀ v, r = .ok v → V ts v

variable {allowed : String → Prop} {E : ε → Prop} {V : List Turn → α → Prop}
  {W : List Turn → β → Prop} {a : Action (Desk ω) ε α}

theorem asks_pure {v : α} (h : V [] v) : Asks d allowed E V (pure v) := by
  refine goes_pure ⟨rfl, List.forall_mem_nil _, nofun, ?_⟩
  rintro _ ⟨⟩
  exact h

theorem asks_throw {e : ε} (h : E e) : Asks d allowed E V (throw e) := by
  refine goes_throw ⟨rfl, List.forall_mem_nil _, ?_, nofun⟩
  rintro _ ⟨⟩
  exact h

theorem Asks.mono {allowed' : String → Prop} {V' : List Turn → α → Prop}
    (h : Asks d allowed E V a) (ha : ∀ text, allowed text → allowed' text)
    (hV : ∀ ts v, V ts v → V' ts v) : Asks d allowed' E V' a := by
  refine Goes.mono h ?_
  rintro ts r d' ⟨hd, ht, he, hv⟩
  exact ⟨hd, fun t hm => (ht t hm).mono ha, he, fun v hr => hV ts v (hv v hr)⟩

theorem Asks.weaken (h : Asks d allowed (fun _ => True) V a) (hE : ∀ e, E e) :
    Asks d allowed E V a := by
  refine Goes.mono h ?_
  rintro ts r d' ⟨hd, ht, -, hv⟩
  exact ⟨hd, ht, fun e _ => hE e, hv⟩

theorem Asks.bind {k : α → Action (Desk ω) ε β} (ha : Asks d allowed E V a)
    (hk : ∀ ts v d', d'.host = d.host → V ts v →
      Asks d' allowed E (fun us w => W (ts ++ us) w) (k v)) : Asks d allowed E W (a >>= k) := by
  refine Goes.bind ha ?_ ?_
  · rintro ts v d' ⟨hd, ht, -, hv⟩
    refine Goes.mono (hk ts v d' hd (hv v rfl)) ?_
    rintro us r d'' ⟨hd', hu, he, hw⟩
    exact ⟨hd'.trans hd, List.forall_mem_append.mpr ⟨ht, hu⟩, he, hw⟩
  · rintro ts e d' ⟨hd, ht, he, -⟩
    exact ⟨hd, ht, fun e' h => he e' (by cases h; rfl), nofun⟩

theorem Asks.orFail {f : ε → ε'} {E : ε' → Prop} (h : Asks d allowed (fun e => E (f e)) V a) :
    Asks d allowed E V (a.orFail f) := by
  refine Goes.orFail (Goes.mono h ?_)
  rintro ts (e | v) d' ⟨hd, ht, he, hv⟩
  · refine ⟨hd, ht, ?_, nofun⟩
    rintro _ ⟨⟩
    exact he e rfl
  · refine ⟨hd, ht, nofun, ?_⟩
    rintro _ ⟨⟩
    exact hv v rfl

theorem Asks.outcome {E : ε' → Prop} (h : Asks d allowed (fun _ => True) V a) :
    Asks d allowed E (fun _ _ => True) (a.outcome : Action (Desk ω) ε' (Except ε α)) := by
  refine Goes.outcome (Goes.mono h ?_)
  rintro ts r d' ⟨hd, ht, -⟩
  exact ⟨hd, ht, nofun, fun _ _ => trivial⟩

theorem asks_host {k : Host → Action (Desk ω) ε α} (h : Asks d allowed E V (k d.host)) :
    Asks d allowed E V (host >>= k) := h

theorem tell_asks {E : IoError → Prop} {text : String} (h : ∀ e, E e) :
    Asks d allowed E (fun _ _ => True) (onTerminal (Terminal.write text)) :=
  goes_tell fun _ _ hd => ⟨hd, List.forall_mem_singleton.mpr trivial, fun e _ => h e,
    fun _ _ => trivial⟩

theorem ask_asks {E : IoError → Prop} {text : String} (h : ∀ e, E e) :
    Asks d (· = text) E (fun ts v => ts = [.ask text (.ok v)]) (onTerminal (Terminal.ask text)) :=
  goes_ask fun _ _ hd => ⟨hd, List.forall_mem_singleton.mpr rfl, fun e _ => h e,
    fun _ hr => hr ▸ rfl⟩

theorem writeLines_asks (lines : List String) :
    Asks d allowed (fun _ => True) (fun _ _ => True)
      (onTerminal (Terminal.writeLines lines)) := by
  induction lines generalizing d with
  | nil =>
    rw [Terminal.writeLines, onTerminal_pure]
    exact asks_pure trivial
  | cons line lines ih =>
    rw [Terminal.writeLines, onTerminal_bind]
    exact (tell_asks fun _ => trivial).bind fun _ _ _ _ _ => ih

theorem askUpTo_asks (q : Question) (n : Nat) :
    Asks d (· = q.text) (fun _ => True) (fun _ _ => True) (onTerminal (Terminal.askUpTo q n)) := by
  induction n generalizing d with
  | zero =>
    rw [Terminal.askUpTo, onTerminal_bind, onTerminal_orFail]
    have told : Asks d (· = q.text) (fun _ => True) _ (onTerminal (Terminal.writeLine "")) :=
      tell_asks fun _ => trivial
    refine Asks.bind (E := fun _ => True) (Asks.orFail told) fun _ _ _ _ _ => ?_
    rw [onTerminal_throw]
    exact asks_throw trivial
  | succ n ih =>
    rw [Terminal.askUpTo, onTerminal_bind, onTerminal_orFail]
    refine (Asks.orFail (ask_asks fun _ => trivial)).bind fun ts value d' _ _ => ?_
    cases h : q.reading? value with
    | some b =>
      rw [onTerminal_pure]
      exact asks_pure trivial
    | none => exact ih

/-- The value was entered and is one that the request takes. -/
def Enters (r : Terminal.Request) (check : Validator) (ts : List Turn) (value : String) : Prop :=
  .ask s!"{r.message}: " (.ok value) ∈ ts ∧
    (value = "" ∧ r.allowEmpty = true ∨ value ≠ "" ∧ check value = none)

theorem Enters.append {r : Terminal.Request} {check : Validator} {us : List Turn} {value : String}
    (h : Enters r check us value) (ts : List Turn) : Enters r check (ts ++ us) value :=
  ⟨List.mem_append_right ts h.1, h.2⟩

theorem enters_of_taken {r : Terminal.Request} {check : Validator} {value : String}
    (h : r.judge check value = .taken) : Enters r check [.ask s!"{r.message}: " (.ok value)] value :=
  ⟨List.mem_cons_self, Terminal.Request.judge_taken h⟩

theorem askValueUpTo_asks (r : Terminal.Request) (check : Validator) (n : Nat) :
    Asks d (· = s!"{r.message}: ") (fun _ => True)
      (fun ts answer => ∀ value, answer = some value → Enters r check ts value)
      (onTerminal (Terminal.askValueUpTo r check n)) := by
  induction n generalizing d with
  | zero =>
    rw [Terminal.askValueUpTo, onTerminal_bind]
    refine (tell_asks fun _ => trivial).bind fun _ _ _ _ _ => ?_
    rw [onTerminal_pure]
    exact asks_pure nofun
  | succ n ih =>
    rw [Terminal.askValueUpTo, onTerminal_bind]
    refine (ask_asks fun _ => trivial).bind ?_
    rintro _ value d' - rfl
    cases h : r.judge check value with
    | taken =>
      simp only
      rw [onTerminal_pure]
      refine asks_pure ?_
      rintro _ ⟨⟩
      exact enters_of_taken h
    | refused reason =>
      simp only
      rw [onTerminal_bind]
      refine (writeLines_asks _).bind fun us _ d'' _ _ => ?_
      refine ih.mono (fun _ h => h) fun vs answer hv value ha => ?_
      exact ((hv value ha).append us).append _

theorem collect_asks (message : String) (check : Validator) (kept : List String)
    (lines : List Bytes) : Asks d (· = s!"{message}: ") (fun _ => True) (fun _ _ => True)
      (onTerminal (Terminal.collect message check kept lines)) := by
  induction lines generalizing d kept with
  | nil =>
    rw [Terminal.collect, onTerminal_bind]
    refine (ask_asks fun _ => trivial).bind fun _ _ _ _ _ => ?_
    rw [onTerminal_pure]
    exact asks_pure trivial
  | cons line rest ih =>
    rw [Terminal.collect, onTerminal_bind]
    refine (ask_asks fun _ => trivial).bind fun _ value _ _ _ => ?_
    split
    · rw [onTerminal_pure]
      exact asks_pure trivial
    · split
      · exact ih _
      · rw [onTerminal_bind]
        exact (tell_asks fun _ => trivial).bind fun _ _ _ _ _ => ih _

theorem askUntilEmpty_asks (message : String) (check : Validator) :
    Asks d (· = s!"{message}: ") (fun _ => True) (fun _ _ => True)
      (onTerminal (Terminal.askUntilEmpty message check)) := by
  have h : Asks d (· = s!"{message}: ") (fun _ => True) (fun _ _ => True)
      ((onTerminal (Terminal.collect message check [] d.terminal.lines)).orFail PromptError.io) :=
    .orFail (collect_asks message check [] d.terminal.lines)
  rw [← onTerminal_orFail] at h
  exact h

variable {d : Desk ω} {allowed : String → Prop} {E : SetupError → Prop}

theorem display_asks (text : String) (h : ∀ e, E (.output e)) :
    Asks d allowed E (fun _ _ => True) (display text) := by
  unfold display
  rw [onTerminal_orFail]
  exact .orFail (tell_asks h)

theorem say_asks (text : String) (h : ∀ e, E (.output e)) :
    Asks d allowed E (fun _ _ => True) (say text) :=
  display_asks _ h

theorem sayAll_asks (lines : List String) (h : ∀ e, E (.output e)) :
    Asks d allowed E (fun _ _ => True) (sayAll lines) := by
  induction lines generalizing d with
  | nil => exact asks_pure trivial
  | cons line lines ih => exact (say_asks line h).bind fun _ _ _ _ _ => ih

theorem askYesNo_asks (q : Question) :
    Asks d (· = q.text) (fun _ => True) (fun _ _ => True) (askYesNo q) :=
  askUpTo_asks q q.attempts

theorem settle_asks (m : Matter) (attempts : Nat) (h : ∀ e, E (.unsettled m e)) :
    Asks d (· = (⟨m.question, m.preset, attempts⟩ : Question).text) E (fun _ _ => True)
      (settle m attempts) :=
  Asks.orFail ((askYesNo_asks _).weaken h)

theorem askValue_asks (r : Terminal.Request) (check : Validator) (h : ∀ e, E (.prompt e)) :
    Asks d (· = s!"{r.message}: ") E
      (fun ts answer => ∀ value, answer = some value → Enters r check ts value)
      (askValue r check) := by
  unfold askValue Terminal.askValue
  rw [onTerminal_orFail, onTerminal_orFail]
  exact .orFail (.orFail ((askValueUpTo_asks r check r.attempts).weaken fun _ => h _))

end Setup

end Provisioner
