import Provisioner.Proofs.Standing

namespace Provisioner

inductive Edit where
  | insert (name value : String)
  | parse (content : String)
  | load (path : String)

namespace Edit

/-- The properties after an edit, on the machine as it is then. What fails changes nothing. -/
def apply (h : Host) (ps : Properties) : Edit → Properties
  | .insert name value =>
    match ps.insert h name value with
    | .ok ps' => ps'
    | .error _ => ps
  | .parse content => (Properties.parse h content).properties
  | .load path =>
    match Properties.load h path with
    | .ok parsed => parsed.properties
    | .error _ => ps

end Edit

namespace Properties

/-- The properties that edits lead to, each made on a machine of its own. -/
def edited (es : List (Host × Edit)) : Properties := es.foldl (fun ps e => e.2.apply e.1 ps) {}

/-- The value was stored by an edit on this machine, and it has been there since. -/
def StoredOn (h : Host) (p : Property) (v : String) (es : List (Host × Edit)) : Prop :=
  ∃ before edit after, es = before ++ (h, edit) :: after ∧
    ∀ since, since <+: after → (edited (before ++ (h, edit) :: since)).get p = some v

theorem edited_concat (es : List (Host × Edit)) (h : Host) (e : Edit) :
    edited (es ++ [(h, e)]) = e.apply h (edited es) := by
  rw [edited, List.foldl_append]
  rfl

variable {h : Host} {ps ps' : Properties} {p : Property} {v : String}

theorem insert_get {name value : String} (hi : ps.insert h name value = .ok ps')
    (hv : ps'.get p = some v) : p.check h value = .ok v ∨ ps.get p = some v := by
  obtain ⟨q, w, hc, rfl⟩ := insert_ok hi
  rw [get_set] at hv
  split at hv
  · subst q
    rw [← Option.some.inj hv]
    exact .inl hc
  · exact .inr hv

theorem parse_get {content : String} (hv : (parse h content).properties.get p = some v) :
    ∃ value, p.check h value = .ok v := by
  refine parse_induct (P := fun ps => ∀ v, ps.get p = some v → ∃ value, p.check h value = .ok v)
    h content (fun v hv => ?_) (fun ps ps' name value hp hi v hv => ?_) v hv
  · cases p <;> cases hv
  · obtain hc | hv := insert_get hi hv
    · exact ⟨value, hc⟩
    · exact hp v hv

/-- One edit: what is there afterwards was checked in it, or was there before. -/
theorem apply_get {e : Edit} (hv : (e.apply h ps).get p = some v) :
    (∃ value, p.check h value = .ok v) ∨ ps.get p = some v := by
  cases e with
  | parse content => exact .inl (parse_get hv)
  | insert name value =>
    cases hi : ps.insert h name value with
    | error e =>
      simp only [Edit.apply, hi] at hv
      exact .inr hv
    | ok ps' =>
      simp only [Edit.apply, hi] at hv
      exact (insert_get hi hv).imp_left fun hc => ⟨value, hc⟩
  | load path =>
    cases hl : load h path with
    | error e =>
      simp only [Edit.apply, hl] at hv
      exact .inr hv
    | ok parsed =>
      simp only [Edit.apply, hl] at hv
      obtain ⟨content, rfl⟩ := load_ok hl
      exact .inl (parse_get hv)

/-- All edits: what is there was checked when it was stored. -/
theorem edited_get {es : List (Host × Edit)} (hv : (edited es).get p = some v) :
    ∃ h, StoredOn h p v es ∧ ∃ value, p.check h value = .ok v := by
  induction es using List.reverseRecOn with
  | nil => cases p <;> cases hv
  | append_singleton es e ih =>
    obtain ⟨h, e⟩ := e
    have hv' := hv
    rw [edited_concat] at hv'
    obtain hc | hv' := apply_get hv'
    · refine ⟨h, ⟨es, e, [], rfl, fun since hs => ?_⟩, hc⟩
      rwa [List.prefix_nil.mp hs]
    · obtain ⟨h', ⟨before, edit, after, rfl, hs⟩, hc⟩ := ih hv'
      refine ⟨h', ⟨before, edit, after ++ [(h, e)], by simp, fun since hp => ?_⟩, hc⟩
      obtain rfl | hp := List.prefix_concat_iff.mp hp
      · simpa using hv
      · exact hs since hp

theorem apply_validated (hp : ps.Validated) (e : Edit) : (e.apply h ps).Validated := by
  have parsed (content : String) : (parse h content).properties.Validated :=
    parse_induct h content .empty fun _ _ _ _ hp hi => hp.insert hi
  cases e with
  | parse content => exact parsed content
  | insert name value =>
    cases hi : ps.insert h name value with
    | error e => simpa only [Edit.apply, hi] using hp
    | ok ps' => simpa only [Edit.apply, hi] using hp.insert hi
  | load path =>
    cases hl : load h path with
    | error e => simpa only [Edit.apply, hl] using hp
    | ok p =>
      obtain ⟨content, rfl⟩ := load_ok hl
      simpa only [Edit.apply, hl] using parsed content

theorem edited_validated (es : List (Host × Edit)) : (edited es).Validated := by
  induction es using List.reverseRecOn with
  | nil => exact .empty
  | append_singleton es e ih =>
    obtain ⟨h, e⟩ := e
    rw [edited_concat]
    exact apply_validated ih e

theorem StoredOn.mem {es : List (Host × Edit)} (hs : StoredOn h p v es) : ∃ e, (h, e) ∈ es := by
  obtain ⟨before, edit, after, rfl, -⟩ := hs
  exact ⟨edit, List.mem_append_right _ List.mem_cons_self⟩

structure Kept (es : List (Host × Edit)) (ps : Properties) : Prop where
  names : ∀ e ∈ ps.toList, ∃ p : Property, e.1 = p.name
  addressPrefix : ∀ v, ps.get .addressPrefix = some v → Net.IsPrefix v
  /-- A path is the same wherever one is. When it was stored, it named something that is no
  directory. -/
  path : ∀ p v, p ≠ .addressPrefix → ps.get p = some v → Files.Path.isAbsolute v = true ∧
    (∀ h : Host, h.resolvePath v = .ok v) ∧
    ∃ h node, StoredOn h p v es ∧ h.stat v = .ok node ∧ node.isDir = false
  refused : ∀ h name value e, ps.insert h name value = .error e →
    (Edit.insert name value).apply h ps = ps
  complete : ps.isComplete = true → ∃ c, InitConfig.ofProperties ps = .ok c ∧
    ps = ⟨some c.sshKey, some c.addressPrefix, some c.inventory⟩
  incomplete : ps.isComplete = false → ∃ p, InitConfig.ofProperties ps = .error (.missingProperty p) ∧
    Property.all.find? (fun p => !ps.contains p) = some p

theorem ofProperties_complete (hc : ps.isComplete = true) : ∃ c, InitConfig.ofProperties ps = .ok c ∧
    ps = ⟨some c.sshKey, some c.addressPrefix, some c.inventory⟩ := by
  obtain ⟨_ | key, _ | net, _ | inventory⟩ := ps <;> first | exact ⟨⟨_, _, _⟩, rfl, rfl⟩ | cases hc

theorem ofProperties_incomplete (hc : ps.isComplete = false) :
    ∃ p, InitConfig.ofProperties ps = .error (.missingProperty p) ∧
      Property.all.find? (fun p => !ps.contains p) = some p := by
  obtain ⟨_ | key, _ | net, _ | inventory⟩ := ps <;> first | exact ⟨_, rfl, rfl⟩ | cases hc

/-- Whatever is done to properties, they stay fit to be used as they are, if the paths of the working
directories are texts. -/
theorem edited_kept {es : List (Host × Edit)} (hp : ∀ e ∈ es, e.1.Placed) : Kept es (edited es) where
  names e he := by
    obtain ⟨p, -, hp⟩ := List.mem_filterMap.mp he
    obtain ⟨v, -, rfl⟩ := Option.map_eq_some_iff.mp hp
    exact ⟨p, rfl⟩
  addressPrefix v hv := by
    obtain ⟨h, -, value, hc⟩ := edited_get hv
    obtain ⟨net, hn, rfl⟩ := Property.check_addressPrefix_ok hc
    exact Net.isPrefix_of_faultless (Net.AddressPrefix.ofString_ok hn)
  path p v hne hv := by
    obtain ⟨h, hs, value, hc⟩ := edited_get hv
    obtain ⟨e, he⟩ := hs.mem
    have hf : h.validateFile p.name value = .ok v := by
      cases p with
      | sshKey | inventory => exact hc
      | addressPrefix => exact absurd rfl hne
    obtain ⟨node, hn, hd⟩ := (hp _ he).stat_validated hf
    exact ⟨(FilePath.shape ⟨h, _, value, hf⟩).1, Host.resolvePath_validated (hp _ he).located hf,
      h, node, hs, hn, hd⟩
  refused h name value e he := by simp only [Edit.apply, he]
  complete := ofProperties_complete
  incomplete := ofProperties_incomplete

def homely : Host where
  root := .dir 0o755 [("me", .dir 0o700 [("key", .file 0o600 [])])]
  cwd := []
  home := some "/me"
  userProfile := none

/-- A file is read, and then a key is named twice, the second time from home and in vain. -/
def drafts : List (Host × Edit) :=
  [(homely, .parse "proxy_ip_address_prefix: 10.0.*"),
    (homely, .insert "ssh_key_path_on_host" "~/./key"),
    ({ homely with cwd := ["me"] }, .insert "ssh_key_path_on_host" "../me")]

theorem drafts_kept : (∀ e ∈ drafts, e.1.Placed) ∧
    edited drafts = ⟨some "/me/key", some "10.0.*", none⟩ ∧ Kept drafts (edited drafts) := by
  have hm : Files.Path.IsName "me" := ⟨by decide, by decide, by decide⟩
  have hp : ∀ e ∈ drafts, e.1.Placed := by
    simp [drafts, homely, Host.Placed, hm]
  exact ⟨hp, by decide +kernel, edited_kept hp⟩

def misled : List (Host × Edit) := [(.misnamed, .insert "ssh_key_path_on_host" "key")]

/-- The key is found there and its path is stored, but as a text, and that names nothing. -/
theorem misled_lose_key :
    Host.misnamed.isFile "key" = true ∧ edited misled = ⟨some "/\uFFFD/key", none, none⟩ ∧
      Host.misnamed.stat "/\uFFFD/key" = .error .notFound ∧ ¬Kept misled (edited misled) := by
  have hk : edited misled = ⟨some "/\uFFFD/key", none, none⟩ := by decide +kernel
  have hs : Host.misnamed.stat "/\uFFFD/key" = .error .notFound := by
    have hm : (Host.misnamed.stat "/\uFFFD/key").map Files.Node.isDir = .error .notFound := by
      decide +kernel
    cases h : Host.misnamed.stat "/\uFFFD/key" with
    | ok n =>
      rw [h] at hm
      cases hm
    | error e =>
      rw [h] at hm
      rw [Except.error.inj hm]
  refine ⟨by decide +kernel, hk, hs, fun h => ?_⟩
  obtain ⟨-, -, host, node, ⟨before, edit, after, he, -⟩, hn, -⟩ :=
    h.path .sshKey "/\uFFFD/key" nofun (by rw [hk]; rfl)
  have hm : (host, edit) ∈ misled := he ▸ List.mem_append_right _ List.mem_cons_self
  obtain rfl : host = Host.misnamed := congrArg Prod.fst (List.mem_singleton.mp hm)
  cases hs.symm.trans hn

end Properties

end Provisioner
