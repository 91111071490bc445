import Provisioner.Proofs.Answers
import Provisioner.Proofs.Standing

namespace Provisioner

open Provisioner.Action Setup

namespace Properties

theorem insert_named (ps : Properties) (h : Host) (p : Property) (value : String) :
    ps.insert h p.name value = (p.check h value).map (ps.set p) := by
  have hp : Property.ofName? p.name = some p := by cases p <;> decide
  unfold insert
  rw [hp]
  cases hc : p.check h value <;> simp only [hc] <;> rfl

theorem isComplete_iff {ps : Properties} :
    ps.isComplete = true ↔ ∀ p, ∃ v, ps.get p = some v := by
  simp only [isComplete, contains, List.all_eq_true, Option.isSome_iff_exists]
  exact ⟨fun h p => h p (by cases p <;> decide), fun h p _ => h p⟩

end Properties

/-- What a file supplies: nothing if there is none or it cannot be read. -/
def Host.supplied (h : Host) : Option String → Properties
  | none => {}
  | some path =>
    match Properties.load h path with
    | .ok parsed => parsed.properties
    | .error _ => {}

theorem Host.supplied_ok {h : Host} {path : String} {parsed : ParsedProperties}
    (hl : Properties.load h path = .ok parsed) : h.supplied (some path) = parsed.properties := by
  rw [supplied, hl]

theorem Host.supplied_error {h : Host} {path : String} {e : ConfigError}
    (hl : Properties.load h path = .error e) : h.supplied (some path) = {} := by
  rw [supplied, hl]

theorem Host.supplied_standing (h : Host) (path? : Option String) :
    (h.supplied path?).Standing h := by
  cases path? with
  | none => exact Properties.standing_empty h
  | some path =>
    cases hl : Properties.load h path with
    | ok parsed =>
      rw [supplied_ok hl]
      exact Properties.load_standing hl
    | error e =>
      rw [supplied_error hl]
      exact Properties.standing_empty h

theorem later_of_trail {ω : Type} [Writer ω] {d d' : Desk ω} {ts : List Turn}
    (h : Trail Desk.Step d ts d') : d.host.Later d'.host := by
  induction h with
  | nil d => exact .refl d.host
  | cons hm _ ih =>
    cases hm with
    | ask | tell => exact ih
    | save hw => exact (Host.later_of_write hw).trans ih

theorem later_goes {ω ε α : Type} [Writer ω] {d : Desk ω} {a : Action (Desk ω) ε α}
    {Q : List Turn → Except ε α → Desk ω → Prop} (h : Goes Desk.Step d a Q) :
    Goes Desk.Step d a fun ts r d' => Q ts r d' ∧ d.host.Later d'.host := by
  obtain ⟨ts, ht, hr⟩ := h
  exact ⟨ts, ht, hr, later_of_trail ht⟩

namespace Interview

/-- The file to start from, and the lines that are left once that is settled. -/
inductive Starts (i : Interview) (h : Host) (lines : List Bytes) :
    Option String → Option String → List Bytes → Prop
  | named (path : String) : Starts i h lines (some path) (some path) lines
  | absent (hf : h.isFile i.configPath = false) : Starts i h lines none none lines
  | accepted {rest : List Bytes} (hf : h.isFile i.configPath = true)
    (ha : Answered (i.about .useFile) i.attempts (.ok true) lines rest) :
    Starts i h lines none (some i.configPath) rest
  | declined {rest : List Bytes} (hf : h.isFile i.configPath = true)
    (ha : Answered (i.about .useFile) i.attempts (.ok false) lines rest) :
    Starts i h lines none none rest

/-- Where the value of a property comes from that was not supplied: it was entered and accepted, or
it is the default, or it was made. It is in its lasting form. -/
inductive Provided (i : Interview) (h : Host) (ts : List Turn) (p : Property) (v : String) : Prop
  | entered {answer : String} (ha : .ask (i.valuePrompt p) (.ok answer) ∈ ts) (hn : answer ≠ "")
    (ht : validator h p answer = none) (hc : p.check h answer = .ok v)
  | preset (hp : p = .inventory) (hc : p.check h i.defaultInventory = .ok v)
  | made {path : String} {h' : Host} (hp : p = .inventory) (hm : i.Made h h' ts path)
    (hc : p.check h' path = .ok v)

/-- An inventory was made, and then it was not accepted. -/
def Rejects (i : Interview) (h : Host) (ts : List Turn) (c : ConfigError) : Prop :=
  ∃ h' path, i.Made h h' ts path ∧ Property.inventory.check h' path = .error c

structure Fills (i : Interview) (h h' : Host) (file : Properties) (qs : List Property)
    (ts : List Turn) (ps : Properties) : Prop where
  kept : ∀ p v, file.get p = some v → ps.get p = some v
  filled : ∀ p ∈ qs, ∃ v, ps.get p = some v
  provided : ∀ p v, file.get p = none → ps.get p = some v → i.Provided h ts p v
  standing : ps.Standing h'
  still : .inventory ∉ qs → h' = h

variable {i : Interview} {h h' : Host} {file ps : Properties} {p : Property} {v : String}
  {qs : List Property} {ts us : List Turn} {ω : Type} [Writer ω] {d : Desk ω}

theorem Made.mono {path : String} (hm : i.Made h h' ts path) (hs : ts ⊆ us) :
    i.Made h h' us path := by
  obtain ⟨rfl, content, ht, hw⟩ := hm
  exact ⟨rfl, content, hs ht, hw⟩

theorem Provided.mono (hp : i.Provided h ts p v) (hs : ts ⊆ us) : i.Provided h us p v := by
  cases hp with
  | entered ha hn ht hc => exact .entered (hs ha) hn ht hc
  | preset hp hc => exact .preset hp hc
  | made hp hm hc => exact .made hp (hm.mono hs) hc

theorem Fills.mono (hf : i.Fills h h' file qs ts ps) (hs : ts ⊆ us) : i.Fills h h' file qs us ps :=
  ⟨hf.kept, hf.filled, fun p v hn hv => (hf.provided p v hn hv).mono hs, hf.standing,
    hf.still⟩

theorem fills_file (i : Interview) (hs : file.Standing h) (ts : List Turn) :
    i.Fills h h file [] ts file where
  kept _ _ hv := hv
  filled := List.forall_mem_nil _
  provided p v hn hv := by
    rw [hn] at hv
    cases hv
  standing := hs
  still _ := rfl

theorem Fills.has (hf : i.Fills h h' file qs ts ps) (hv : ps.get p = some v) :
    i.Fills h h' file (p :: qs) ts ps where
  kept := hf.kept
  filled := List.forall_mem_cons.mpr ⟨⟨v, hv⟩, hf.filled⟩
  provided := hf.provided
  standing := hf.standing
  still hq := hf.still fun hm => hq (List.mem_cons_of_mem _ hm)

theorem Fills.set {h'' : Host} (hf : i.Fills h h' file qs ts ps) (hn : ps.get p = none)
    (hv : i.Provided h ts p v) (hs : (ps.set p v).Standing h'')
    (hi : .inventory ∉ p :: qs → h'' = h) : i.Fills h h'' file (p :: qs) ts (ps.set p v) where
  kept q w hw := by
    have hp := hf.kept q w hw
    rw [Properties.get_set, if_neg, hp]
    rintro rfl
    rw [hn] at hp
    cases hp
  filled q hq := by
    rw [Properties.get_set]
    split
    · exact ⟨v, rfl⟩
    · exact hf.filled q ((List.mem_cons.mp hq).resolve_left ‹_›)
  provided q w hq hw := by
    rw [Properties.get_set] at hw
    split at hw
    · subst q
      obtain rfl := Option.some.inj hw
      exact hv
    · exact hf.provided q w hq hw
  standing := hs
  still := hi

def Seeks (i : Interview) (file : Properties) (text : String) : Prop :=
  ∃ p, file.get p = none ∧ text ∈ i.prompts p

def Filling (i : Interview) (h : Host) (file : Properties) (qs : List Property) (ts : List Turn)
    (d : Desk ω) (a : SetupOn ω Properties) : Prop :=
  Goes Desk.Step d a fun us r d' => (∀ t ∈ us, t.About (i.Seeks file)) ∧
    (∀ c, r = .error (.config c) → i.Rejects h (ts ++ us) c) ∧
    ∀ ps, r = .ok ps → i.Fills h d'.host file qs (ts ++ us) ps

theorem Filling.mono {a : SetupOn ω Properties} (ha : i.Filling h file qs (ts ++ us) d a)
    (hu : ∀ t ∈ us, t.About (i.Seeks file)) :
    Goes Desk.Step d a fun vs r d' => (∀ t ∈ us ++ vs, t.About (i.Seeks file)) ∧
      (∀ c, r = .error (.config c) → i.Rejects h (ts ++ (us ++ vs)) c) ∧
      ∀ ps, r = .ok ps → i.Fills h d'.host file qs (ts ++ (us ++ vs)) ps := by
  refine Goes.mono ha ?_
  rintro vs r d' ⟨hv, hr, hf⟩
  rw [List.append_assoc] at hr hf
  exact ⟨List.forall_mem_append.mpr ⟨hu, hv⟩, hr, hf⟩

theorem Filling.bind {rs : List Property} {a : SetupOn ω Properties}
    {k : Properties → SetupOn ω Properties}
    (ha : i.Filling h file qs ts d a)
    (hk : ∀ us ps d', i.Fills h d'.host file qs (ts ++ us) ps →
      i.Filling h file rs (ts ++ us) d' (k ps)) : i.Filling h file rs ts d (a >>= k) := by
  refine Goes.bind ha ?_ ?_
  · rintro us ps d' ⟨hu, -, hf⟩
    exact (hk us ps d' (hf ps rfl)).mono hu
  · rintro us e d' ⟨hu, hr, -⟩
    exact ⟨hu, fun c h => hr c (by cases h; rfl), nofun⟩

theorem Filling.after {V : List Turn → Unit → Prop} {b : SetupOn ω Unit}
    {k : Unit → SetupOn ω Properties}
    (hb : Asks d (fun _ => False) SetupError.Unconfigured V b)
    (hk : ∀ us d', d'.host = d.host → i.Filling h file qs (ts ++ us) d' (k ())) :
    i.Filling h file qs ts d (b >>= k) := by
  refine Goes.bind hb ?_ ?_
  · rintro us ⟨⟩ d' ⟨hd, hu, -⟩
    exact (hk us d' hd).mono fun t hm => (hu t hm).about fun _ => False.elim
  · rintro us e d' ⟨-, hu, he, -⟩
    refine ⟨fun t hm => (hu t hm).about fun _ => False.elim, ?_, nofun⟩
    rintro c ⟨⟩
    exact (he _ rfl c rfl).elim

theorem insert_filling {value : String} (hf : i.Fills h h' file qs ts ps) (hn : ps.get p = none)
    (hl : h'.Later d.host)
    (hv : d.host = h ∧ i.Chosen h p ts value ∨ p = .inventory ∧ i.Made h d.host ts value) :
    i.Filling h file (p :: qs) ts d (insert ps p value) := by
  refine goes_host ?_
  rw [Properties.insert_named]
  cases hc : p.check d.host value with
  | error c =>
    refine goes_throw ⟨List.forall_mem_nil _, ?_, nofun⟩
    rintro _ ⟨⟩
    rw [List.append_nil]
    obtain ⟨rfl, -, ht⟩ | ⟨rfl, hm⟩ := hv
    · obtain ⟨v, hv⟩ := validator_eq_none.mp ht
      rw [hv] at hc
      cases hc
    · exact ⟨d.host, value, hm, hc⟩
  | ok v =>
    refine goes_pure ⟨List.forall_mem_nil _, nofun, ?_⟩
    rintro _ ⟨⟩
    rw [List.append_nil]
    have hi : ps.insert d.host p.name value = .ok (ps.set p v) := by
      rw [Properties.insert_named, hc]
      rfl
    have hs : (ps.set p v).Standing d.host := (hf.standing.later hl).insert hi
    obtain ⟨rfl, ⟨ha, hne⟩ | ⟨rfl, rfl⟩, ht⟩ | ⟨rfl, hm⟩ := hv
    · exact hf.set hn (.entered ha hne ht hc) hs fun _ => rfl
    · exact hf.set hn (.preset rfl hc) hs fun _ => rfl
    · exact hf.set hn (.made rfl hm hc) hs fun hq => absurd List.mem_cons_self hq

theorem complete_filling {answer : SetupOn ω String} (hf : i.Fills h d.host file qs ts ps)
    (hq : .inventory ∉ qs) (ha : i.Answers d p answer) :
    i.Filling h file (p :: qs) ts d (complete ps p answer) := by
  have hd := hf.still hq
  unfold complete
  split
  · rename_i hc
    obtain ⟨v, hv⟩ := Option.isSome_iff_exists.mp hc
    refine goes_pure ⟨List.forall_mem_nil _, nofun, ?_⟩
    rintro _ ⟨⟩
    rw [List.append_nil]
    exact hf.has hv
  · rename_i hc
    have hn : ps.get p = none := Option.not_isSome_iff_eq_none.mp hc
    have hl : file.get p = none := by
      refine Option.eq_none_iff_forall_ne_some.mpr fun v hv => ?_
      rw [hf.kept p v hv] at hn
      cases hn
    refine Goes.bind (later_goes ha) ?_ ?_
    · rintro us value d' ⟨⟨hu, -, hv⟩, hd'⟩
      have hf' : i.Fills h d.host file qs (ts ++ us) ps := hf.mono (List.subset_append_left ts us)
      refine (insert_filling hf' hn hd' ?_).mono fun t hm => (hu t hm).mono fun _ h => ⟨p, hl, h⟩
      rw [hd] at hv
      exact (hv value rfl).imp (fun ⟨hd', hc⟩ => ⟨hd', hc.append ts⟩)
        fun ⟨hp, hm⟩ => ⟨hp, hm.mono (List.subset_append_right ts us)⟩
    · rintro us e d' ⟨⟨hu, he, -⟩, -⟩
      refine ⟨fun t hm => (hu t hm).mono fun _ h => ⟨p, hl, h⟩, ?_, nofun⟩
      rintro c ⟨⟩
      exact (he _ rfl c rfl).elim

theorem save_goes (i : Interview) (ps : Properties) (d : Desk ω) :
    Goes Desk.Step d (i.save ps) fun ts r _ => (∀ t ∈ ts, t.About fun _ => False) ∧
      ∀ e, r = .error e → e.Unconfigured := by
  refine goes_host ?_
  have said {d : Desk ω} (text : String) : Goes Desk.Step d (say text) fun ts r _ =>
      (∀ t ∈ ts, t.About fun _ => False) ∧ ∀ e, r = .error e → e.Unconfigured := by
    refine Goes.mono (say_quiet text) ?_
    rintro ts r d' ⟨-, ht, he, -⟩
    exact ⟨fun t hm => (ht t hm).about fun _ h => h, he⟩
  unfold Properties.persist
  cases hw : d.host.write i.configPath (Text.bytes ps.text) with
  | error e => exact said _
  | ok h =>
    refine goes_save hw (Goes.mono (said _) ?_)
    rintro ts r d' ⟨ht, he⟩
    exact ⟨List.forall_mem_cons.mpr ⟨trivial, ht⟩, he⟩

theorem save_filling (hf : i.Fills h d.host file qs ts ps) (hq : .inventory ∈ qs) :
    i.Filling h file qs ts d (do
      i.save ps
      return ps) := by
  refine Goes.bind (later_goes (i.save_goes ps d)) ?_ ?_
  · rintro us ⟨⟩ d' ⟨⟨hu, -⟩, hl⟩
    refine goes_pure ⟨fun t hm => ?_, nofun, ?_⟩
    · rw [List.append_nil] at hm
      exact (hu t hm).mono fun _ => False.elim
    · rintro _ ⟨⟩
      rw [List.append_nil]
      have hf' := hf.mono (List.subset_append_left ts us)
      exact ⟨hf'.kept, hf'.filled, hf'.provided, hf.standing.later hl, fun hn => absurd hq hn⟩
  · rintro us e d' ⟨⟨hu, he⟩, -⟩
    refine ⟨fun t hm => (hu t hm).mono fun _ => False.elim, ?_, nofun⟩
    rintro c ⟨⟩
    exact (he _ rfl c rfl).elim

theorem Filling.next {answer : SetupOn ω String} {rs : List Property}
    {k : Properties → SetupOn ω Properties} (hf : i.Fills h d.host file qs ts ps)
    (hq : .inventory ∉ qs) (ha : ∀ d, i.Answers d p answer)
    (hk : ∀ us ps d', i.Fills h d'.host file (p :: qs) (ts ++ us) ps →
      i.Filling h file rs (ts ++ us) d' (k ps)) :
    i.Filling h file rs ts d (complete ps p answer >>= fun ps => say "" >>= fun _ => k ps) := by
  refine .bind (complete_filling hf hq (ha d)) fun us ps d' hf' => ?_
  refine .after (say_quiet _) fun vs d'' hd => ?_
  rw [List.append_assoc]
  refine hk (us ++ vs) ps d'' ?_
  rw [hd, ← List.append_assoc]
  exact hf'.mono (List.subset_append_left _ vs)

theorem askMissing_filling (hs : file.Standing h) (hd : d.host = h) (ts : List Turn) :
    i.Filling h file [.inventory, .addressPrefix, .sshKey] ts d (i.askMissing file) := by
  refine .after (say_quiet _) fun us d₁ h₁ => .after (say_quiet _) fun vs d₂ h₂ => ?_
  have hf : i.Fills h d₂.host file [] (ts ++ us ++ vs) file := by
    rw [h₂, h₁, hd]
    exact i.fills_file hs _
  have hk (d : Desk ω) : i.Answers d .sshKey i.askSshKey :=
    answers_of_asks askSshKey_asks fun _ h => h ▸ List.mem_singleton_self _
  have ha (d : Desk ω) : i.Answers d .addressPrefix i.askAddressPrefix :=
    answers_of_asks askAddressPrefix_asks fun _ h => h ▸ List.mem_singleton_self _
  refine .next hf (by decide) hk fun ws ps d₃ hf => ?_
  refine .next hf (by decide) ha fun xs ps d₄ hf => ?_
  refine .next hf (by decide) (fun _ => askInventory_answers) fun ys ps d₅ hf => ?_
  exact save_filling hf List.mem_cons_self

/-- Only the question about this matter may be asked. `L` tells what comes of it with the lines that
are left. -/
def Reads {α : Type} (i : Interview) (m : Matter) (L : Except SetupError α → List Bytes → Prop)
    (d : Desk ω) (a : SetupOn ω α) : Prop :=
  Goes Desk.Step d a fun ts r d' => d'.host = d.host ∧
    (∀ t ∈ ts, t.Within (· = (i.about m).text)) ∧ L r d'.terminal.lines

variable {α β : Type} {m : Matter} {L : Except SetupError α → List Bytes → Prop}
  {M : Except SetupError β → List Bytes → Prop}

theorem reads_pure {v : α} (hl : L (.ok v) d.terminal.lines) : i.Reads m L d (pure v) :=
  goes_pure ⟨rfl, List.forall_mem_nil _, hl⟩

theorem Reads.bind {a : SetupOn ω α} {k : α → SetupOn ω β} (ha : i.Reads m L d a)
    (hk : ∀ v d', d'.host = d.host → L (.ok v) d'.terminal.lines → i.Reads m M d' (k v))
    (he : ∀ e lines, L (.error e) lines → M (.error e) lines) : i.Reads m M d (a >>= k) := by
  refine Goes.bind ha ?_ ?_
  · rintro ts v d' ⟨hd, ht, hl⟩
    refine Goes.mono (hk v d' hd hl) ?_
    rintro us r d'' ⟨hd', hu, hm⟩
    exact ⟨hd'.trans hd, List.forall_mem_append.mpr ⟨ht, hu⟩, hm⟩
  · rintro ts e d' ⟨hd, ht, hl⟩
    exact ⟨hd, ht, he e _ hl⟩

theorem lines_of_quiet {d' : Desk ω} (h : Trail Desk.Step d ts d')
    (ht : ∀ t ∈ ts, t.Within fun _ => False) : d'.terminal.lines = d.terminal.lines := by
  refine h.keeps (f := fun d => d.terminal.lines) fun t hm d d' hs => ?_
  cases hs with
  | ask => exact (ht _ hm).elim
  | save => exact (ht _ hm).elim
  | tell text d => exact Terminal.write_lines text d.terminal

theorem reads_of_quiet {E : SetupError → Prop} {V : List Turn → α → Prop} {a : SetupOn ω α}
    (ha : Asks d (fun _ => False) E V a) : i.Reads m (fun r lines => lines = d.terminal.lines ∧
      (∀ e, r = .error e → E e) ∧ ∀ v, r = .ok v → ∃ ts, V ts v) d a := by
  obtain ⟨ts, h, hd, ht, he, hv⟩ := ha
  exact ⟨ts, h, hd, fun t hm => (ht t hm).mono fun _ => False.elim, lines_of_quiet h ht, he,
    fun v hr => ⟨ts, hv v hr⟩⟩

theorem settle_reads (m : Matter) : i.Reads m (fun r lines => ∃ a, r = a.mapError (.unsettled m) ∧
    Answered (i.about m) i.attempts a d.terminal.lines lines) d (settle m i.attempts) := by
  have asked : Asks d (· = (i.about m).text) (fun _ => True) _ (settle m i.attempts) :=
    settle_asks _ _ fun _ => trivial
  have answered : ∃ a, ((settle m i.attempts).apply d).1 = a.mapError (.unsettled m) ∧
      Answered (i.about m) i.attempts a d.terminal.lines
        ((settle m i.attempts).apply d).2.terminal.lines := by
    unfold settle
    rw [apply_orFail]
    exact ⟨_, rfl, Terminal.askUpTo_answered (i.about m) i.attempts d.terminal⟩
  refine Goes.mono (Goes.also (R := fun r d' => ∃ a, r = a.mapError (.unsettled m) ∧
    Answered (i.about m) i.attempts a d.terminal.lines d'.terminal.lines) asked answered) ?_
  rintro ts r d' ⟨⟨hd, ht, -, -⟩, hl⟩
  exact ⟨hd, ht, hl⟩

def Gets (V : α → List Bytes → Prop) : Except SetupError α → List Bytes → Prop
  | .ok v, rest => V v rest
  | .error e, _ => e.Unconfigured

theorem startingFile_reads (named : Option String) :
    i.Reads .useFile (Gets (i.Starts d.host d.terminal.lines named)) d (i.startingFile named) := by
  cases named with
  | some path => exact reads_pure (.named path)
  | none =>
    refine goes_host ?_
    split
    · rename_i hf
      refine Reads.bind (settle_reads .useFile) ?_ ?_
      · rintro b d' hd ⟨_ | _, ⟨⟩, ha⟩
        refine reads_pure ?_
        cases b with
        | true => exact .accepted hf ha
        | false => exact .declined hf ha
      · rintro e lines ⟨_ | _, ⟨⟩, -⟩
        exact fun _ => nofun
    · exact reads_pure (.absent (Bool.eq_false_iff.mpr ‹_›))

def Loads (i : Interview) (h : Host) (lines : List Bytes) (named : Option String) (ps : Properties)
    (rest : List Bytes) : Prop :=
  ∃ path?, i.Starts h lines named path? rest ∧ ps = h.supplied path?

theorem loadFile_quiet (path : String) : Asks d (fun _ => False) SetupError.Unconfigured
    (fun _ ps => ps = d.host.supplied (some path)) (loadFile path) := by
  refine asks_host ?_
  cases hl : Properties.load d.host path with
  | ok parsed =>
    rw [Host.supplied_ok hl]
    exact (sayAll_asks _ fun _ _ => nofun).bind fun _ _ _ _ _ => asks_pure rfl
  | error e =>
    rw [Host.supplied_error hl]
    exact (say_quiet _).bind fun _ _ _ _ _ => asks_pure rfl

theorem loadExisting_reads (named : Option String) :
    i.Reads .useFile (Gets (i.Loads d.host d.terminal.lines named)) d (i.loadExisting named) := by
  refine (startingFile_reads named).bind (fun path? d₁ hd hs => ?_) fun _ _ he => he
  cases path? with
  | none => exact reads_pure ⟨none, hs, rfl⟩
  | some path =>
    refine Goes.mono (reads_of_quiet (i := i) (m := .useFile) (loadFile_quiet path)) ?_
    rintro ts (e | ps) d₂ ⟨hd', ht, hl, he, hv⟩
    · exact ⟨hd', ht, he e rfl⟩
    · obtain ⟨-, rfl⟩ := hv ps rfl
      refine ⟨hd', ht, some path, ?_, by rw [hd]⟩
      rw [hl]
      exact hs

def opening (i : Interview) (named : Option String) : SetupOn ω Properties := do
  display Listing.banner
  let ps ← i.loadExisting named
  say ""
  return ps

theorem collect_eq (named : Option String) :
    (i.collect named : SetupOn ω Properties) = i.opening named >>= fun ps =>
      if ps.isComplete then pure ps else i.askMissing ps := by
  simp only [collect, opening, bind_assoc, pure_bind]

theorem opening_reads (named : Option String) :
    i.Reads .useFile (Gets (i.Loads d.host d.terminal.lines named)) d (i.opening named) := by
  have shown : Asks d (fun _ => False) SetupError.Unconfigured _ (display Listing.banner) :=
    display_asks _ fun _ _ => nofun
  refine (reads_of_quiet shown).bind ?_ fun e _ he => he.2.1 e rfl
  rintro - d₁ hd ⟨hl, -⟩
  rw [← hl, ← hd]
  refine (loadExisting_reads named).bind (fun ps d₂ _ hs => ?_) fun _ _ he => he
  refine (reads_of_quiet (say_quiet "")).bind ?_ fun e _ he => he.2.1 e rfl
  rintro - d₃ - ⟨hl', -⟩
  refine reads_pure ?_
  rw [hl']
  exact hs

/-- What an interview comes to that starts from a file with this content and these lines. -/
structure Collects (i : Interview) (d : Desk ω) (file : Properties) (rest : List Bytes)
    (ts : List Turn) (r : Except SetupError Properties) (d' : Desk ω) : Prop where
  asked : ∀ t ∈ ts, t.About fun text => text = (i.about .useFile).text ∨ i.Seeks file text
  unasked : ∀ p v, file.get p = some v → ∀ t ∈ ts, t.About (· ∉ i.prompts p)
  complete : ∀ ps, r = .ok ps → ps.isComplete = true
  standing : ∀ ps, r = .ok ps → ps.Standing d'.host
  kept : ∀ ps, r = .ok ps → ∀ p v, file.get p = some v → ps.get p = some v
  provided : ∀ ps, r = .ok ps → ∀ p v, file.get p = none → ps.get p = some v →
    i.Provided d.host ts p v
  /-- Nothing is read and nothing is saved once the file has everything. -/
  finished : file.isComplete = true → d'.terminal.lines = rest ∧ d'.host = d.host ∧
    ∀ t ∈ ts, t.Within (· = (i.about .useFile).text)
  /-- Only an inventory that was made can be rejected. -/
  rejected : ∀ c, r = .error (.config c) → i.Rejects d.host ts c

theorem unasked_of_asked (hv : file.get p = some v) {t : Turn}
    (ht : t.About fun text => text = (i.about .useFile).text ∨ i.Seeks file text) :
    t.About (· ∉ i.prompts p) := by
  refine ht.mono fun text h hm => ?_
  obtain rfl | ⟨q, hq, hm'⟩ := h
  · exact useFile_not_mem hm
  · obtain rfl := prompts_disjoint hm hm'
    rw [hv] at hq
    cases hq

omit [Writer ω] in
theorem collects_complete {rest : List Bytes} {d' : Desk ω} (hc : file.isComplete = true)
    (hs : file.Standing d.host) (hl : d'.terminal.lines = rest) (hd : d'.host = d.host)
    (ht : ∀ t ∈ ts, t.Within (· = (i.about .useFile).text)) :
    i.Collects d file rest ts (.ok file) d' where
  asked t hm := (ht t hm).about fun _ => .inl
  unasked p v hv t hm := unasked_of_asked hv ((ht t hm).about fun _ => .inl)
  complete := by
    rintro _ ⟨⟩
    exact hc
  standing := by
    rintro _ ⟨⟩
    exact hd ▸ hs
  kept := by
    rintro _ ⟨⟩ p v hv
    exact hv
  provided := by
    rintro _ ⟨⟩ p v hn hv
    rw [hn] at hv
    cases hv
  finished _ := ⟨hl, hd, ht⟩
  rejected := nofun

omit [Writer ω] in
theorem collects_filling {rest : List Bytes} {r : Except SetupError Properties} {d' : Desk ω}
    (hc : file.isComplete = false) (ht : ∀ t ∈ ts, t.Within (· = (i.about .useFile).text))
    (hu : ∀ t ∈ us, t.About (i.Seeks file))
    (hr : ∀ c, r = .error (.config c) → i.Rejects d.host (ts ++ us) c)
    (hf : ∀ ps, r = .ok ps →
      i.Fills d.host d'.host file [.inventory, .addressPrefix, .sshKey] (ts ++ us) ps) :
    i.Collects d file rest (ts ++ us) r d' := by
  have asked : ∀ t ∈ ts ++ us, t.About fun text => text = (i.about .useFile).text ∨
      i.Seeks file text :=
    List.forall_mem_append.mpr ⟨fun t hm => (ht t hm).about fun _ => .inl,
      fun t hm => (hu t hm).mono fun _ => .inr⟩
  exact {
    asked
    unasked := fun p v hv t hm => unasked_of_asked hv (asked t hm)
    complete := fun ps h => Properties.isComplete_iff.mpr fun p =>
      (hf ps h).filled p (by cases p <;> decide)
    standing := fun ps h => (hf ps h).standing
    kept := fun ps h => (hf ps h).kept
    provided := fun ps h => (hf ps h).provided
    finished := fun h => by rw [hc] at h; cases h
    rejected := hr }

theorem collect_goes (named : Option String) (d : Desk ω) :
    Goes Desk.Step d (i.collect named) fun ts r d' =>
      (d'.host = d.host ∧ (∀ t ∈ ts, t.Within (· = (i.about .useFile).text)) ∧
        ∃ e, r = .error e ∧ e.Unconfigured) ∨
      ∃ path? rest, i.Starts d.host d.terminal.lines named path? rest ∧
        i.Collects d (d.host.supplied path?) rest ts r d' := by
  rw [collect_eq]
  refine Goes.bind (opening_reads named) ?_ ?_
  · rintro ts ps d₁ ⟨hd, ht, path?, hs, rfl⟩
    split
    · rename_i hc
      refine goes_pure (.inr ⟨path?, _, hs, ?_⟩)
      rw [List.append_nil]
      exact collects_complete hc (Host.supplied_standing _ _) rfl hd ht
    · rename_i hc
      refine Goes.mono (askMissing_filling (Host.supplied_standing _ _) hd ts) ?_
      rintro us r d₂ ⟨hu, hr, hf⟩
      exact .inr ⟨path?, _, hs, collects_filling (Bool.eq_false_iff.mpr hc) ht hu hr hf⟩
  · rintro ts e d₁ ⟨hd, ht, he⟩
    exact .inl ⟨hd, ht, e, rfl, he⟩

theorem collect_standing {named : Option String} {d' : Desk ω}
    (hc : (i.collect named).apply d = (.ok ps, d')) : ps.Standing d'.host := by
  obtain ⟨ts, -, ⟨-, -, e, he, -⟩ | ⟨path?, rest, -, h⟩⟩ := collect_goes (i := i) named d
  · rw [hc] at he
    cases he
  · rw [hc] at h
    exact h.standing ps rfl

end Interview

end Provisioner
