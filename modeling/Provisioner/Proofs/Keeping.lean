import Provisioner.Proofs.Collection
import Provisioner.Proofs.Drafting

namespace Provisioner

open Provisioner.Action Setup

structure Desk.Still {ω : Type} (d d' : Desk ω) : Prop where
  host : d'.host = d.host
  lines : d'.terminal.lines <:+ d.terminal.lines

variable {ω : Type}

theorem Desk.Still.refl (d : Desk ω) : d.Still d := ⟨rfl, List.suffix_refl _⟩

theorem Desk.Still.trans {d d' d'' : Desk ω} (h : d.Still d') (h' : d'.Still d'') : d.Still d'' :=
  ⟨h'.host.trans h.host, h'.lines.trans h.lines⟩

variable [Writer ω]

theorem lines_of_step {d d' : Desk ω} {t : Turn} (h : Desk.Step d t d') :
    d'.terminal.lines <:+ d.terminal.lines := by
  cases h with
  | ask text =>
    have ⟨_, ha⟩ := Terminal.ask_finds Writer.ready_of_faults (t := d.terminal) trivial text
    change ((Terminal.ask text).apply d.terminal).2.lines <:+ d.terminal.lines
    obtain ⟨-, hl⟩ | ⟨-, hl, -⟩ := ha
    · exact hl ▸ List.drop_suffix 1 _
    · exact hl ▸ List.suffix_refl _
  | tell | save => exact List.suffix_refl _

theorem lines_of_trail {d d' : Desk ω} {ts : List Turn} (h : Trail Desk.Step d ts d') :
    d'.terminal.lines <:+ d.terminal.lines := by
  induction h with
  | nil => exact List.suffix_refl _
  | cons hm _ ih => exact ih.trans (lines_of_step hm)

theorem still_of_asks {α : Type} {d : Desk ω} {allowed : String → Prop} {E : SetupError → Prop}
    {V : List Turn → α → Prop} {a : SetupOn ω α} (h : Asks d allowed E V a) :
    Goes Desk.Step d a fun ts r d' => (saves ts = [] ∧ d.Still d') ∧
      ∀ e, r = .error e → E e := by
  obtain ⟨ts, ht, hd, hw, he, -⟩ := h
  exact ⟨ts, ht, ⟨saves_of_within hw, hd, lines_of_trail ht⟩, he⟩

structure Properties.Gains (ps ps' : Properties) (p : Property) : Prop where
  has : ∃ v, ps'.get p = some v
  kept : ∀ q v, ps.get q = some v → ps'.get q = some v

theorem Properties.gains_set {ps : Properties} {p : Property} (hn : ps.get p = none) (v : String) :
    ps.Gains (ps.set p v) p where
  has := ⟨v, by rw [get_set, if_pos rfl]⟩
  kept q w hw := by
    rw [get_set, if_neg, hw]
    rintro rfl
    rw [hn] at hw
    cases hw

namespace Interview

variable {i : Interview} {d d₀ : Desk ω} {ps : Properties} {p : Property}

inductive Stocks (i : Interview) (d : Desk ω) : List (String × Bytes) → Host → Prop
  | kept : Stocks i d [] d.host
  | made {lines : List Bytes} {inv : Inventory} {h : Host} (hl : lines <:+ d.terminal.lines)
    (hd : Drafts True i.attempts lines (.ok inv))
    (hw : d.host.write i.inventoryPath (Text.bytes inv.text) = .ok h) :
    Stocks i d [(i.inventoryPath, Text.bytes inv.text)] h

/-- What comes of an interview: the files that are written, the result, and the machine after it.
The properties are saved last, in one go, once they are complete. Only the message about that may
then be lost. -/
inductive Keeps (i : Interview) (d : Desk ω) :
    List (String × Bytes) → Except SetupError Properties → Host → Prop
  | supplied {ps : Properties} (hc : ps.isComplete = true) : Keeps i d [] (.ok ps) d.host
  | aborted {ws : List (String × Bytes)} {h : Host} (e : SetupError) (hs : i.Stocks d ws h) :
    Keeps i d ws (.error e) h
  | unsaved {ws : List (String × Bytes)} {ps : Properties} {h : Host} {c : IoError}
    (hs : i.Stocks d ws h) (hc : ps.isComplete = true)
    (hw : h.write i.configPath (Text.bytes ps.text) = .error c) : Keeps i d ws (.ok ps) h
  | saved {ws : List (String × Bytes)} {ps : Properties} {h h' : Host} (hs : i.Stocks d ws h)
    (hc : ps.isComplete = true) (hw : h.write i.configPath (Text.bytes ps.text) = .ok h') :
    Keeps i d (ws ++ [(i.configPath, Text.bytes ps.text)]) (.ok ps) h'
  | unreported {ws : List (String × Bytes)} {ps : Properties} {h h' : Host}
    (hs : i.Stocks d ws h) (hc : ps.isComplete = true)
    (hw : h.write i.configPath (Text.bytes ps.text) = .ok h') (e : IoError) :
    Keeps i d (ws ++ [(i.configPath, Text.bytes ps.text)]) (.error (.output e)) h'

omit [Writer ω] in
theorem stocks_of_generates {ws : List (String × Bytes)} {r : Except SetupError String} {h : Host}
    (hs : d₀.Still d) (hg : Generates True i d ws r h) : i.Stocks d₀ ws h := by
  cases hg with
  | undrafted | unwritten => exact hs.host ▸ .kept
  | written hd hw | unreported hd hw => exact .made hs.lines hd (hs.host ▸ hw)

theorem stocks_after {α β : Type} {a : SetupOn ω α} {k : α → SetupOn ω β}
    {P : Except SetupError α → Prop} (hs : d₀.Still d)
    (ha : Goes Desk.Step d a fun ts r d' => (saves ts = [] ∧ d.Still d') ∧ P r)
    (hk : ∀ v d', d₀.Still d' → Goes Desk.Step d' (k v) fun ts _ d'' =>
      i.Stocks d₀ (saves ts) d''.host) :
    Goes Desk.Step d (a >>= k) fun ts _ d' => i.Stocks d₀ (saves ts) d'.host := by
  refine Goes.bind ha ?_ ?_
  · rintro ts v d' ⟨⟨hw, hd⟩, -⟩
    refine Goes.mono (hk v d' (hs.trans hd)) fun us r d'' h => ?_
    rwa [saves_append, hw]
  · rintro ts e d' ⟨⟨hw, hd⟩, -⟩
    rw [hw, (hs.trans hd).host]
    exact .kept

theorem keeps_after {α : Type} {a : SetupOn ω α} {P : Except SetupError α → Prop}
    {k : α → SetupOn ω Properties} (hs : d₀.Still d)
    (ha : Goes Desk.Step d a fun ts r d' => (saves ts = [] ∧ d.Still d') ∧ P r)
    (hk : ∀ v d', d₀.Still d' → P (.ok v) →
      Goes Desk.Step d' (k v) fun ts r d'' => i.Keeps d₀ (saves ts) r d''.host) :
    Goes Desk.Step d (a >>= k) fun ts r d' => i.Keeps d₀ (saves ts) r d'.host := by
  refine Goes.bind ha ?_ ?_
  · rintro ts v d' ⟨⟨hw, hd⟩, hv⟩
    refine Goes.mono (hk v d' (hs.trans hd) hv) fun us r d'' h => ?_
    rwa [saves_append, hw]
  · rintro ts e d' ⟨⟨hw, hd⟩, -⟩
    rw [hw, (hs.trans hd).host]
    exact .aborted e .kept

theorem insert_gains (hn : ps.get p = none) (value : String) :
    Goes Desk.Step d (insert ps p value) fun ts r d' => (ts = [] ∧ d' = d) ∧
      ∀ ps', r = .ok ps' → ps.Gains ps' p := by
  refine goes_host ?_
  rw [Properties.insert_named]
  cases p.check d.host value with
  | error c => exact goes_throw ⟨⟨rfl, rfl⟩, nofun⟩
  | ok v =>
    refine goes_pure ⟨⟨rfl, rfl⟩, ?_⟩
    rintro _ ⟨⟩
    exact Properties.gains_set hn v

/-- A property that is asked for if it is not there. `R` holds of what is written and of the desk
after that. -/
theorem complete_gains (ps : Properties) (p : Property) {answer : SetupOn ω String}
    {R : List (String × Bytes) → Desk ω → Prop} {P : Except SetupError String → Prop}
    (hd : R [] d)
    (ha : Goes Desk.Step d answer fun ts r d' => R (saves ts) d' ∧ P r) :
    Goes Desk.Step d (complete ps p answer) fun ts r d' => R (saves ts) d' ∧
      ∀ ps', r = .ok ps' → ps.Gains ps' p := by
  unfold complete
  split
  · rename_i hc
    refine goes_pure ⟨hd, ?_⟩
    rintro _ ⟨⟩
    exact ⟨Option.isSome_iff_exists.mp hc, fun _ _ hv => hv⟩
  · rename_i hc
    have hn : ps.get p = none := Option.not_isSome_iff_eq_none.mp hc
    refine Goes.bind ha (fun ts value d' hd' => ?_) fun _ e d' hd' => ⟨hd'.1, nofun⟩
    refine Goes.mono (insert_gains hn value) ?_
    rintro _ r _ ⟨⟨rfl, rfl⟩, hg⟩
    rw [List.append_nil]
    exact ⟨hd'.1, hg⟩

theorem askInventory_stocks (hs : d₀.Still d) :
    Goes Desk.Step d i.askInventory fun ts _ d' => i.Stocks d₀ (saves ts) d'.host := by
  have settled : Asks d _ (fun _ => True) _ (settle .hasInventory i.attempts) :=
    settle_asks _ _ fun _ => trivial
  refine stocks_after hs (still_of_asks settled) fun hasOne d₁ h₁ => ?_
  refine stocks_after h₁ (still_of_asks (say_quiet "")) fun _ d₂ h₂ => ?_
  split
  · refine Goes.mono (still_of_asks askExistingInventory_asks) ?_
    rintro ts r d₃ ⟨⟨hw, hd⟩, -⟩
    rw [hw, (h₂.trans hd).host]
    exact .kept
  · exact Goes.mono (generateInventory_generates Writer.ready_of_faults i d₂ trivial)
      fun _ _ _ => stocks_of_generates h₂

theorem save_keeps {ws : List (String × Bytes)} (hs : i.Stocks d₀ ws d.host)
    (hc : ps.isComplete = true) :
    Goes Desk.Step d (do
      i.save ps
      return ps) fun ts r d' => i.Keeps d₀ (ws ++ saves ts) r d'.host := by
  -- Only output is left once the file is written, or is known not to be.
  have said (d' : Desk ω) {ws : List (String × Bytes)} (text : String)
      (hv : i.Keeps d₀ ws (.ok ps) d'.host)
      (he : ∀ e, i.Keeps d₀ ws (.error (.output e)) d'.host) :
      Goes Desk.Step d' (say text >>= fun _ => pure ps) fun ts r d'' =>
        i.Keeps d₀ (ws ++ saves ts) r d''.host := by
    have told : Asks d' (fun _ => False) (fun e => ∃ c, e = .output c) (fun _ _ => True)
        (say text) := say_asks text fun c => ⟨c, rfl⟩
    refine Goes.bind (still_of_asks told) ?_ ?_
    · rintro ts ⟨⟩ d'' ⟨⟨hw, hd⟩, -⟩
      refine goes_pure ?_
      rw [List.append_nil, hw, List.append_nil, hd.host]
      exact hv
    · rintro ts e d'' ⟨⟨hw, hd⟩, hout⟩
      obtain ⟨c, rfl⟩ := hout e rfl
      rw [hw, List.append_nil, hd.host]
      exact he c
  unfold save
  rw [bind_assoc]
  refine goes_host ?_
  unfold Properties.persist
  cases hw : d.host.write i.configPath (Text.bytes ps.text) with
  | error c => exact said d _ (.unsaved hs hc hw) fun e => .aborted _ hs
  | ok h =>
    simp only [bind_assoc]
    refine goes_save hw (Goes.mono (said { d with host := h } _ (.saved hs hc hw) fun e =>
      .unreported hs hc hw e) fun ts r d' hk => ?_)
    rwa [saves_save, List.append_cons]

theorem askMissing_keeps (hs : d₀.Still d) :
    Goes Desk.Step d (i.askMissing ps) fun ts r d' => i.Keeps d₀ (saves ts) r d'.host := by
  have said {d : Desk ω} (text : String) := still_of_asks (say_quiet (d := d) text)
  refine keeps_after hs (said _) fun _ d₁ h₁ _ => keeps_after h₁ (said _) fun _ d₂ h₂ _ => ?_
  refine keeps_after h₂ (complete_gains _ _ (R := fun ws d' => ws = [] ∧ d₂.Still d')
    ⟨rfl, .refl d₂⟩ (still_of_asks askSshKey_asks)) fun ps₁ d₃ h₃ g₁ => ?_
  refine keeps_after h₃ (said _) fun _ d₄ h₄ _ => ?_
  refine keeps_after h₄ (complete_gains _ _ (R := fun ws d' => ws = [] ∧ d₄.Still d')
    ⟨rfl, .refl d₄⟩ (still_of_asks askAddressPrefix_asks)) fun ps₂ d₅ h₅ g₂ => ?_
  refine keeps_after h₅ (said _) fun _ d₆ h₆ _ => ?_
  have stocked := complete_gains ps₂ .inventory (P := fun _ => True)
    (R := fun ws d' => i.Stocks d₀ ws d'.host) (h₆.host ▸ .kept)
    (Goes.mono (askInventory_stocks h₆) fun _ _ _ h => ⟨h, trivial⟩)
  refine Goes.bind stocked ?_ ?_
  · rintro ts ps₃ d₇ ⟨hs, hg⟩
    have g₁ := g₁ ps₁ rfl
    have g₂ := g₂ ps₂ rfl
    have g₃ := hg ps₃ rfl
    -- Each value was there or was added, and none was lost since.
    have complete : ps₃.isComplete = true := by
      refine Properties.isComplete_iff.mpr fun p => ?_
      cases p with
      | sshKey => exact g₁.has.imp fun v hv => g₃.kept _ v (g₂.kept _ v hv)
      | addressPrefix => exact g₂.has.imp fun v hv => g₃.kept _ v hv
      | inventory => exact g₃.has
    refine Goes.bind (said _) ?_ ?_
    · rintro us - d₈ ⟨⟨hw, h₈⟩, -⟩
      have hk := save_keeps (d := d₈) (h₈.host ▸ hs) complete
      refine Goes.mono hk fun vs r d₉ hk => ?_
      rwa [saves_append, saves_append, hw]
    · rintro us e d₈ ⟨⟨hw, h₈⟩, -⟩
      rw [saves_append, hw, List.append_nil, h₈.host]
      exact .aborted e hs
  · rintro ts e d₇ ⟨hs, -⟩
    exact .aborted e hs

theorem collect_keeps (named : Option String) (d : Desk ω) :
    Goes Desk.Step d (i.collect named) fun ts r d' => i.Keeps d (saves ts) r d'.host := by
  have opened : Goes Desk.Step d (i.opening named) fun ts _ d' =>
      (saves ts = [] ∧ d.Still d') ∧ True := by
    obtain ⟨ts, ht, hd, hw, -⟩ := opening_reads (i := i) (d := d) named
    exact ⟨ts, ht, ⟨saves_of_within hw, hd, lines_of_trail ht⟩, trivial⟩
  rw [collect_eq]
  refine keeps_after (.refl d) opened fun ps d₁ h₁ _ => ?_
  split
  · exact goes_pure (h₁.host ▸ .supplied ‹_›)
  · exact askMissing_keeps h₁

omit [Writer ω] in
theorem configPath_steps (i : Interview) : Files.steps i.configPath ≠ [] :=
  Files.steps_join_ne_nil i.workdir ⟨by decide, by decide, by decide⟩

omit [Writer ω] in
theorem configPath_ne_inventoryPath (i : Interview) : i.configPath ≠ i.inventoryPath := by
  intro h
  have hc : Files.Path.EndsIn i.configPath configFileName :=
    Files.Path.join_endsIn i.workdir ⟨by decide, by decide, by decide⟩
  have hi : Files.Path.EndsIn i.inventoryPath inventoryName :=
    Files.Path.join_endsIn i.workdir ⟨by decide, by decide, by decide⟩
  rw [← h] at hi
  exact absurd (hc.symm.trans hi) (by decide)

omit [Writer ω] in
theorem Stocks.contents {ws : List (String × Bytes)} {h : Host} (hs : i.Stocks d ws h)
    (ha : d.host.Apart i.inventoryPath i.configPath) :
    (∀ content, (i.configPath, content) ∉ ws) ∧
      h.content? i.configPath = d.host.content? i.configPath ∧
      (h.content? i.inventoryPath = d.host.content? i.inventoryPath ∨
        ∃ lines inv k n, lines <:+ d.terminal.lines ∧ Drafted True i.attempts lines inv k n ∧
          h.content? i.inventoryPath = some (Text.bytes inv.text)) := by
  cases hs with
  | kept => exact ⟨fun _ => List.not_mem_nil, rfl, .inl rfl⟩
  | @made lines inv _ hl hd hw =>
    refine ⟨fun content hm => ?_, Host.content?_apart i.configPath_steps ha hw, ?_⟩
    · exact i.configPath_ne_inventoryPath (congrArg Prod.fst (List.mem_singleton.mp hm))
    · obtain hc | ⟨rfl, -⟩ := Host.content?_written i.inventoryPath_steps hw
      · obtain ⟨k, n, hdraft⟩ := hd.drafted_of_ok
        exact .inr ⟨lines, inv, k, n, hl, hdraft, hc⟩
      · exact .inl rfl

/-- Someone who has saved properties before, starts anew and has too few proxies. -/
def restarter : Desk where
  terminal := ⟨["no", "/key", "10.*", "n", "n", "10.0.0.1", "10.0.0.2", ""].map Text.bytes, {}⟩
  host := { root := .dir 0o755 [("key", .file 0o600 []), ("work", .dir 0o755 [
              ("ansible_container_init_config", .file 0o644 (Text.bytes "saved before"))])]
            cwd := []
            home := none
            userProfile := none }

end Interview

end Provisioner
