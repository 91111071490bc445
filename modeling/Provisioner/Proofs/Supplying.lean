import Provisioner.Proofs.Output
import Provisioner.Provision.ImageSupply

namespace Provisioner

inductive Worded : List (Option String) → List String → Prop
  | nil : Worded [] []
  | missing {parts : List (Option String)} {ws : List String} (h : Worded parts ws) :
    Worded (none :: parts) ws
  | empty {parts : List (Option String)} {ws : List String} (h : Worded parts ws) :
    Worded (some "" :: parts) ws
  | word {parts : List (Option String)} {w : String} {ws : List String} (hw : w ≠ "")
    (h : Worded parts ws) : Worded (some w :: parts) (w :: ws)

theorem worded_filter (parts : List (Option String)) :
    Worded parts ((parts.filterMap fun part => part).filter (· != "")) := by
  induction parts with
  | nil => exact .nil
  | cons part parts ih =>
    match part with
    | none => exact .missing ih
    | some w =>
      by_cases hw : w = ""
      · subst hw
        exact .empty ih
      · have hf : ((some w :: parts).filterMap fun part => part).filter (· != "") =
            w :: (parts.filterMap fun part => part).filter (· != "") :=
          List.filter_cons_of_pos (by simpa using hw)
        rw [hf]
        exact .word hw ih

theorem Worded.joined_ne_empty {parts : List (Option String)} {w : String} {ws : List String}
    (h : Worded parts (w :: ws)) : " ".intercalate (w :: ws) ≠ "" := by
  generalize hv : w :: ws = vs at h
  induction h with
  | nil => cases hv
  | missing _ ih | empty _ ih => exact ih hv
  | word hw _ _ =>
    cases hv
    cases ws with
    | nil => rwa [String.intercalate_singleton]
    | cons v vs =>
      rw [String.intercalate_cons_of_ne_nil (List.cons_ne_nil v vs)]
      simp [hw]

/-- A message with words in it makes a line, and one without makes none. -/
inductive Renders : List Progress → List String → Prop
  | nil : Renders [] []
  | silent {p : Progress} {ps : List Progress} {lines : List String}
    (hw : Worded [p.id, p.status, p.progress] []) (h : Renders ps lines) : Renders (p :: ps) lines
  | line {p : Progress} {ps : List Progress} {w : String} {ws lines : List String}
    (hw : Worded [p.id, p.status, p.progress] (w :: ws)) (h : Renders ps lines) :
    Renders (p :: ps) (" ".intercalate (w :: ws) :: lines)

theorem renders_lines (ps : List Progress) :
    Renders ps ((ps.map Progress.line).filter (· != "")) := by
  induction ps with
  | nil => exact .nil
  | cons p ps ih =>
    have hw := worded_filter [p.id, p.status, p.progress]
    rw [List.map_cons]
    unfold Progress.line
    generalize ([p.id, p.status, p.progress].filterMap fun part => part).filter (· != "") = ws at hw ⊢
    cases ws with
    | nil => exact .silent hw ih
    | cons w ws =>
      rw [List.filter_cons_of_pos (by simpa using hw.joined_ne_empty)]
      exact .line hw ih

inductive Tagged : List String → String → Prop
  | untagged : Tagged [] ""
  | last (tag : String) : Tagged [tag] tag
  | next (tag : String) {tag' text : String} {tags : List String} (h : Tagged (tag' :: tags) text) :
    Tagged (tag :: tag' :: tags) (tag ++ ", " ++ text)

theorem tagged_intercalate (tags : List String) : Tagged tags (", ".intercalate tags) := by
  induction tags with
  | nil => exact .untagged
  | cons tag tags ih =>
    cases tags with
    | nil =>
      rw [String.intercalate_singleton]
      exact .last tag
    | cons tag' tags =>
      rw [String.intercalate_cons_cons]
      exact .next tag ih

def Describes (i : ImageListing) (line : String) : Prop :=
  ∃ text, Tagged i.tags text ∧ line = "Found image with name " ++ text ++ " and id " ++ i.id

theorem describes_line (i : ImageListing) : Describes i i.line :=
  ⟨_, tagged_intercalate i.tags, rfl⟩

/-- How many images there are, then each of them, and that there is nothing to pull. -/
inductive Reports (images : List ImageListing) : List String → Prop
  | listed {lines : List String} (h : List.Forall₂ Describes images lines) :
    Reports images (s!"Found {images.length} images" :: lines ++
      ["Docker image is already present and ready to use, so it will not be pulled"])

def said (line : String) : Bytes := Text.bytes (line ++ "\n")

def announcement (r : Image.Reference) : Bytes := said ("Pulling image " ++ r.text)

namespace Site

variable {δ κ : Type} {site : Site δ κ} {s t : Session δ κ}

def begun (r : Image.Reference) (feed : Feed Progress) : List Move :=
  [.call (.listImages r) (.ok []), accepted (announcement r), .call (.pullImage r) feed]

/-- The moves that see to an image, what they may add to what was taken, and what comes of it. -/
inductive Provides (r : Image.Reference) :
    List Move → Bytes → Except ProvisionError ImageStatus → Prop
  | unlisted (e : DaemonError) :
    Provides r [.call (.listImages r) (.error e)] [] (.error (.imagePull r.text e))
  | present {images : List ImageListing} (hi : images ≠ []) {lines : List String}
    (hl : Reports images lines) :
    Provides r (.call (.listImages r) (.ok images) :: (lines.map said).map accepted)
      (lines.map said).flatten (.ok (.present images.length))
  | unreported {images : List ImageListing} (hi : images ≠ []) {lines : List String}
    (hl : Reports images lines) {ms : List Move} {out : Bytes} {e : ProvisionError}
    (h : Offers ProvisionError.output (lines.map said) ms out (.error e)) :
    Provides r (.call (.listImages r) (.ok images) :: ms) out (.error e)
  | unannounced (e : IoError) {part : Bytes} (hp : part <+: announcement r) :
    Provides r [.call (.listImages r) (.ok []), .write (announcement r) (.error e)] part
      (.error (.output e))
  | unshown {feed : Feed Progress} {lines : List String} (hl : Renders feed.items lines)
    {ms : List Move} {out : Bytes} {e : ProvisionError}
    (h : Offers ProvisionError.output (lines.map said) ms out (.error e)) :
    Provides r (begun r feed ++ ms) (announcement r ++ out) (.error e)
  | unpulled {feed : Feed Progress} {lines : List String} (hl : Renders feed.items lines)
    {e : DaemonError} (hf : feed.failure = some e) :
    Provides r (begun r feed ++ (lines.map said).map accepted)
      (announcement r ++ (lines.map said).flatten) (.error (.imagePull r.text e))
  | unflushed {feed : Feed Progress} {lines : List String} (hl : Renders feed.items lines)
    (hf : feed.failure = none) (e : IoError) :
    Provides r (begun r feed ++ ((lines.map said).map accepted ++ [.flush (.error e)]))
      (announcement r ++ (lines.map said).flatten) (.error (.output e))
  | pulled {feed : Feed Progress} {lines : List String} (hl : Renders feed.items lines)
    (hf : feed.failure = none) :
    Provides r (begun r feed ++ ((lines.map said).map accepted ++ [.flush (.ok ())]))
      (announcement r ++ (lines.map said).flatten) (.ok .pulled)

theorem say_emits (line : String) :
    site.Emits (site.say line) (Offers ProvisionError.output [said line]) :=
  emits_write (said line) _

theorem sayAll_emits (lines : List String) :
    site.Emits (site.sayAll lines) (Offers ProvisionError.output (lines.map said)) := by
  induction lines with
  | nil => exact emits_pure .taken
  | cons line lines ih => exact (say_emits line).thenOffer ih

def sayReport (site : Site δ κ) (images : List ImageListing) : Run δ κ ProvisionError Unit := do
  site.say s!"Found {images.length} images"
  site.sayAll (images.map ImageListing.line)
  site.say "Docker image is already present and ready to use, so it will not be pulled"

theorem reportImages_eq (images : List ImageListing) : site.reportImages images =
    site.sayReport images >>= fun _ => pure (.present images.length) := by
  simp only [reportImages, sayReport, bind_assoc]

theorem sayReport_emits (images : List ImageListing) : ∃ lines, Reports images lines ∧
    site.Emits (site.sayReport images) (Offers ProvisionError.output (lines.map said)) := by
  have hl : List.Forall₂ Describes images (images.map ImageListing.line) := by
    induction images with
    | nil => exact .nil
    | cons i images ih => exact .cons (describes_line i) ih
  refine ⟨_, .listed hl, ?_⟩
  rw [List.map_append, List.map_cons]
  exact (say_emits _).thenOffer ((sayAll_emits _).thenOffer (say_emits _))

theorem reportImages_emits {r : Image.Reference} {images : List ImageListing} (hi : images ≠ []) :
    site.Emits (site.reportImages images) fun ms out result =>
      Provides r (.call (.listImages r) (.ok images) :: ms) out result := by
  obtain ⟨lines, hl, he⟩ : ∃ lines, Reports images lines ∧
      site.Emits (site.sayReport images) (Offers ProvisionError.output (lines.map said)) :=
    sayReport_emits images
  rw [reportImages_eq]
  refine he.thenReturn (fun ms out h => ?_) fun ms out e h => .unreported hi hl h
  cases h
  exact .present hi hl

theorem pullImage_emits (r : Image.Reference) :
    site.Emits (site.pullImage r) fun ms out result =>
      Provides r (.call (.listImages r) (.ok []) :: ms) out result := by
  refine (say_emits ("Pulling image " ++ r.text)).after ?_ fun ms out e h => ?_
  · rw [List.flatten_singleton]
    refine emits_call fun feed => ?_
    have hl := renders_lines feed.items
    refine (sayAll_emits _).after ?_ fun ms out e h => .unshown hl h
    cases hf : feed.failure with
    | some e =>
      refine emits_throw ?_
      rw [List.append_nil, List.append_nil]
      exact .unpulled hl hf
    | none =>
      refine (emits_flush _).thenReturn ?_ ?_
      · rintro ms out ⟨_ | _, rfl, rfl, hr⟩ <;> cases hr
        rw [List.append_nil]
        exact .pulled hl hf
      · rintro ms out e ⟨e | _, rfl, rfl, hr⟩ <;> cases hr
        rw [List.append_nil]
        exact .unflushed hl hf e
  · obtain ⟨cause, rfl, rfl, hp⟩ := h.refuses
    exact .unannounced cause hp

theorem ensureImage_emits (r : Image.Reference) :
    site.Emits (site.ensureImage r) (Provides r) := by
  refine emits_demand (told_move_call (.listImages r)) (fun _ _ => Move.Adds.of_call)
    (fun images => ?_) .unlisted
  cases images with
  | nil => exact pullImage_emits r
  | cons i is => exact reportImages_emits (List.cons_ne_nil i is)

/-- A pull is asked for exactly once it was said that nothing was found. -/
theorem Provides.pulls_iff {r : Image.Reference} {ms : List Move} {out : Bytes}
    {result : Except ProvisionError ImageStatus} (h : Provides r ms out result) :
    (∃ r' feed, .call (.pullImage r') feed ∈ ms) ↔
      [.call (.listImages r) (.ok []), accepted (announcement r)] <+: ms := by
  have silent {ms : List Move} (hw : ∀ m ∈ ms, ∃ bs r', m = .write bs r')
      {a : Reply (List ImageListing)} :
      ¬∃ r' feed, Move.call (.pullImage r') feed ∈ Move.call (.listImages r) a :: ms := by
    rintro ⟨r', feed, hm⟩
    obtain hm | hm := List.mem_cons.mp hm
    · cases hm
    · obtain ⟨_, _, ⟨⟩⟩ := hw _ hm
  -- The last four begin with the announcement, and just these have a pull.
  cases h with
  | unlisted e =>
    refine iff_of_false (silent (List.forall_mem_nil _)) fun hp => ?_
    cases (List.cons_prefix_cons.mp hp).1
  | present hi hl =>
    refine iff_of_false (silent (Offers.taken (f := ProvisionError.output)).writes) fun hp => ?_
    cases (List.cons_prefix_cons.mp hp).1
    exact hi rfl
  | unreported hi hl h =>
    refine iff_of_false (silent h.writes) fun hp => ?_
    cases (List.cons_prefix_cons.mp hp).1
    exact hi rfl
  | unannounced e hp =>
    refine iff_of_false (silent (List.forall_mem_singleton.mpr ⟨_, _, rfl⟩)) fun hp => ?_
    cases (List.cons_prefix_cons.mp (List.cons_prefix_cons.mp hp).2).1
  | unshown | unpulled | unflushed | pulled =>
    exact iff_of_true ⟨r, _, .tail _ (.tail _ (.head _))⟩ ⟨_, rfl⟩

/-- An image is pulled only when none was found and that was said. What is there is reported, or else
how the pull comes on, in order, up to a line that is refused or to what fails, and the first thing
that fails is what it fails with. -/
theorem ensureImage_provides {r : Image.Reference} {result : Except ProvisionError ImageStatus}
    (h : (site.ensureImage r).apply s = (result, t)) :
    ∃ ms, site.Path s ms t ∧ (∃ out, Provides r ms out result) ∧
      ((∃ r' feed, .call (.pullImage r') feed ∈ ms) ↔
        [.call (.listImages r) (.ok []), accepted (announcement r)] <+: ms) ∧
      ∀ taken, site.console.Takes taken →
        ∃ out, Provides r ms out result ∧ taken t.console = taken s.console ++ out := by
  obtain ⟨ms, hp, ⟨out, hr⟩, htaken⟩ := (ensureImage_emits r).told h
  exact ⟨ms, hp, ⟨out, hr⟩, hr.pulls_iff, htaken⟩

/-- Nothing is listed, and the pull fails behind a blank message and one of two words. -/
def wanting : Session Rehearsal.Script Rehearsal.Answers where
  daemon := { pull := [.ok { id := some "" }, .ok { id := some "a1", progress := some "50%" },
    .error (.said "no space"), .ok { status := some "done" }] }
  console := {}

/-- Two images are listed, one with two tags and one with none. -/
def stocked : Session Rehearsal.Script Rehearsal.Answers where
  daemon := { images := [⟨"a1", ["img:1", "img:2"]⟩, ⟨"b2", []⟩] }
  console := {}

def stockedText : Bytes :=
  Text.bytes ("Found 2 images\n" ++ "Found image with name img:1, img:2 and id a1\n" ++
    "Found image with name  and id b2\n" ++
    "Docker image is already present and ready to use, so it will not be pulled\n")

theorem wanting_provides :
    (∃ t ms, (Rehearsal.site.ensureImage ⟨"img"⟩).apply wanting =
        (.error (.imagePull "img" (.daemon .pullImage "no space")), t) ∧
      Rehearsal.site.Path wanting ms t ∧
      Provides ⟨"img"⟩ ms (Text.bytes "Pulling image img\na1 50%\n")
        (.error (.imagePull "img" (.daemon .pullImage "no space"))) ∧
      t.console.output.written = Text.bytes "Pulling image img\na1 50%\n") ∧
    ∃ t ms, (Rehearsal.site.ensureImage ⟨"img"⟩).apply stocked = (.ok (.present 2), t) ∧
      Rehearsal.site.Path stocked ms t ∧
      Provides ⟨"img"⟩ ms stockedText (.ok (.present 2)) ∧
      t.console.output.written = stockedText := by
  have hr : ((Rehearsal.site.ensureImage ⟨"img"⟩).apply wanting).1 =
      .error (.imagePull "img" (.daemon .pullImage "no space")) := by decide +kernel
  have hw : ((Rehearsal.site.ensureImage ⟨"img"⟩).apply wanting).2.console.output.written =
      Text.bytes "Pulling image img\na1 50%\n" := by decide +kernel
  have hr' : ((Rehearsal.site.ensureImage ⟨"img"⟩).apply stocked).1 = .ok (.present 2) := by
    decide +kernel
  have hw' : ((Rehearsal.site.ensureImage ⟨"img"⟩).apply stocked).2.console.output.written =
      stockedText := by decide +kernel
  constructor
  · obtain ⟨ms, hp, -, -, htaken⟩ := ensureImage_provides (Prod.ext hr rfl)
    obtain ⟨out, hprovides, hout⟩ := htaken _ Rehearsal.Answers.console_takes
    obtain rfl : Text.bytes "Pulling image img\na1 50%\n" = out := hw.symm.trans hout
    exact ⟨_, ms, Prod.ext hr rfl, hp, hprovides, hw⟩
  · obtain ⟨ms, hp, -, -, htaken⟩ := ensureImage_provides (Prod.ext hr' rfl)
    obtain ⟨out, hprovides, hout⟩ := htaken _ Rehearsal.Answers.console_takes
    obtain rfl : stockedText = out := hw'.symm.trans hout
    exact ⟨_, ms, Prod.ext hr' rfl, hp, hprovides, hw'⟩

end Site

end Provisioner
