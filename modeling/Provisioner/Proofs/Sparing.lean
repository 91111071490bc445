import Provisioner.Proofs.Keeping

namespace Provisioner

open Provisioner.Action Setup

namespace Host

open Files

variable {h h' : Host} {p q : String} {content found : Bytes} {ws : List (String × Bytes)}

/-- Paths that lead to different places still do after something was written. -/
theorem Apart.later {path : String} (ha : h.Apart p q) (hp : steps p ≠ []) (hq : steps q ≠ [])
    (hw : h.write path content = .ok h') : h'.Apart p q := by
  cases write_ok hw with
  | device => exact ha
  | file _ hr =>
    intro a b hpa hqb
    obtain ⟨a', ha', hla, -⟩ := hr.arrive_back hp hpa
    obtain ⟨b', hb', hlb, -⟩ := hr.arrive_back hq hqb
    rw [← hla, ← hlb]
    exact ha a' b' ha' hb'

/-- Where something is read, it is read after something else was written, or else what was
written is. -/
theorem content?_after (hq : steps q ≠ []) (hc : h.content? q = some found)
    (hw : h.write p content = .ok h') :
    h'.content? q = some found ∨ ¬h.Apart p q ∧ h'.content? q = some content := by
  by_cases ha : h.Apart p q
  · exact .inl ((content?_apart hq ha hw).trans hc)
  cases write_ok hw with
  | device => exact .inl hc
  | @file a root' hp hr =>
    refine .inr ⟨ha, ?_⟩
    obtain ⟨l, n, hf, hn⟩ := content?_eq_some.mp hc
    obtain ⟨n', hf', -⟩ := find_keeps hr.keeps hf (Node.isDir_of_content? hn)
    obtain ⟨_, hb, -⟩ := find_eq_ok.mp hf
    obtain ⟨_, hb', -⟩ := find_eq_ok.mp hf'
    have hl : a.place.location = l := by
      refine Classical.not_not.mp fun hl => ha fun a' b ha' hb'' => ?_
      cases hp.symm.trans ha'
      cases hb.symm.trans hb''
      exact hl
    obtain ⟨mode, hw⟩ := hr.file
    rw [hl] at hw
    refine content?_eq_some.mpr ⟨l, n', hf', ?_⟩
    cases hw.symm.trans (arrive_truthful hb')
    rfl

inductive Saves : Host → List (String × Bytes) → Host → Prop
  | nil (h : Host) : Saves h [] h
  | cons {h h' h'' : Host} {p : String} {content : Bytes} {ws : List (String × Bytes)}
    (hw : h.write p content = .ok h') (hs : Saves h' ws h'') : Saves h ((p, content) :: ws) h''

/-- A file keeps its content, or it has what was written to where its path leads. -/
theorem Saves.content? (hs : Saves h ws h') (hw : ∀ w ∈ ws, steps w.1 ≠ []) (hq : steps q ≠ [])
    (hc : h.content? q = some found) :
    h'.content? q = some found ∨ ∃ w ∈ ws, ¬h.Apart w.1 q ∧ h'.content? q = some w.2 := by
  induction hs generalizing found with
  | nil => exact .inl hc
  | @cons h h₁ h' p content ws hp _ ih =>
    rw [List.forall_mem_cons] at hw
    have rest (found : Bytes) (hc : h₁.content? q = some found) : h'.content? q = some found ∨
        ∃ w ∈ (p, content) :: ws, ¬h.Apart w.1 q ∧ h'.content? q = some w.2 := by
      refine (ih hw.2 hc).imp id ?_
      rintro ⟨w, hm, ha, hc'⟩
      exact ⟨w, List.mem_cons_of_mem _ hm, fun h => ha (h.later (hw.2 w hm) hq hp), hc'⟩
    obtain hc | ⟨ha, hc⟩ := content?_after hq hc hp
    · exact rest found hc
    · refine (rest content hc).elim (fun hc' => .inr ?_) .inr
      exact ⟨_, List.mem_cons_self, ha, hc'⟩

theorem saves_of_trail {ω : Type} [Writer ω] {d d' : Desk ω} {ts : List Turn}
    (h : Trail Desk.Step d ts d') : Saves d.host (saves ts) d'.host := by
  induction h with
  | nil d => exact .nil d.host
  | cons hm _ ih =>
    cases hm with
    | ask | tell => exact ih
    | save hw => exact .cons hw ih

theorem content?_of_stat {n : Node} (hs : h.stat p = .ok n) (hn : n.isDir = false) :
    ∃ content, h.content? p = some content := by
  obtain ⟨l, hf⟩ := stat_eq_ok.mp hs
  rw [content?_found hf]
  cases n with
  | dir => cases hn
  | file _ content => exact ⟨content, rfl⟩
  | link | device => exact ⟨[], rfl⟩

end Host

namespace Interview

variable {i : Interview} {ω : Type} [Writer ω] {d d' : Desk ω} {ps : Properties}

omit [Writer ω] in
theorem Stocks.paths {ws : List (String × Bytes)} {h : Host} (hs : i.Stocks d ws h) :
    ∀ w ∈ ws, w.1 = i.inventoryPath := by
  cases hs with
  | kept => exact List.forall_mem_nil _
  | made => exact List.forall_mem_singleton.mpr rfl

omit [Writer ω] in
theorem Keeps.paths {ws : List (String × Bytes)} {r : Except SetupError Properties} {h : Host}
    (hk : i.Keeps d ws r h) : ∀ w ∈ ws, w.1 = i.inventoryPath ∨ w.1 = i.configPath := by
  cases hk with
  | supplied => exact List.forall_mem_nil _
  | aborted _ hs | unsaved hs => exact fun w hm => .inl (hs.paths w hm)
  | saved hs | unreported hs =>
    refine List.forall_mem_append.mpr ⟨fun w hm => .inl (hs.paths w hm), ?_⟩
    exact List.forall_mem_singleton.mpr (.inr rfl)

theorem collect_checks_key {named : Option String}
    (hc : (i.collect named).apply d = (.ok ps, d')) : ∃ key, ps.get .sshKey = some key ∧
      ∃ h value, h.Later d.host ∧ Property.sshKey.check h value = .ok key := by
  obtain ⟨ts, -, ⟨-, -, e, he, -⟩ | ⟨path?, rest, -, hs⟩⟩ := collect_goes (i := i) named d
  · rw [hc] at he
    cases he
  rw [hc] at hs
  obtain ⟨key, hk⟩ := Properties.isComplete_iff.mp (hs.complete ps rfl) .sshKey
  refine ⟨key, hk, ?_⟩
  cases hf : (d.host.supplied path?).get .sshKey with
  | some v =>
    cases hk.symm.trans (hs.kept ps rfl _ v hf)
    exact d.host.supplied_standing path? _ _ hf
  | none =>
    cases hs.provided ps rfl _ key hf hk with
    | entered _ _ _ hv => exact ⟨d.host, _, .refl _, hv⟩
    | preset hp | made hp => cases hp

/-- The file that an interview names as the private key is as it was before, unless its path leads to
where the interview has written an inventory or the properties. Then it is that file. The path leads
to a file from the start, if that of the working directory is a text. -/
theorem collect_spares_key {named : Option String}
    (hc : (i.collect named).apply d = (.ok ps, d')) :
    ∃ ts key, Trail Desk.Step d ts d' ∧ ps.get .sshKey = some key ∧
      (d.host.Placed → ∃ content, d.host.content? key = some content) ∧
      (∀ w ∈ saves ts, w.1 = i.inventoryPath ∨ w.1 = i.configPath) ∧
      ∀ content, d.host.content? key = some content → d'.host.content? key = some content ∨
        ∃ w ∈ saves ts, ¬d.host.Apart w.1 key ∧ d'.host.content? key = some w.2 := by
  obtain ⟨key, hk, h, value, hl, hv⟩ := collect_checks_key hc
  obtain ⟨ts, ht, hkeeps⟩ := collect_keeps (i := i) named d
  rw [hc] at ht hkeeps
  have hpaths := hkeeps.paths
  refine ⟨ts, key, ht, hk, fun hp => ?_, hpaths, fun content hcontent => ?_⟩
  · have hp : h.Placed := fun n hn => hp n (hl.cwd ▸ hn)
    obtain ⟨n, hs, hn⟩ := hp.stat_validated hv
    obtain ⟨n', hs', hn'⟩ := hl.stat hs hn
    exact Host.content?_of_stat hs' hn'
  · have hkey : Files.steps key ≠ [] := by
      obtain ⟨-, l, he, hi, -⟩ := FilePath.shape ⟨h, _, value, hv⟩
      intro hn
      have hlast := he.steps hi.ne_empty
      rw [hn] at hlast
      cases hlast
    refine (Host.saves_of_trail ht).content? (fun w hm => ?_) hkey hcontent
    obtain h | h := hpaths w hm
    · exact h ▸ i.inventoryPath_steps
    · exact h ▸ i.configPath_steps

/-- Someone in the directory of the interview who names a key there, has no inventory, and gives the
address of one proxy for testing. -/
def keyholder (key : String) (files : List (String × Files.Node)) : Desk where
  terminal := ⟨[key, "10.*", "n", "y", "10.0.0.1", "", ""].map Text.bytes, {}⟩
  host := { root := .dir 0o755 [("keys", .dir 0o700 [("id", .file 0o600 (Text.bytes "secret"))]),
              ("work", .dir 0o755 files)]
            cwd := ["work"]
            home := none
            userProfile := none }

/-- The key that is named is a link to one elsewhere. -/
def careful : Desk := keyholder "./id" [("id", .link "../keys/id")]

/-- The key that is named has the name of the inventory. -/
def careless : Desk :=
  keyholder "cloudgate_inventory" [("cloudgate_inventory", .file 0o600 (Text.bytes "secret"))]

def oneProxy : String :=
  "[proxies]\n10.0.0.1 ansible_connection=ssh ansible_user=ubuntu\n\n"

/-- A key to which the directory has a link stays as it is when an inventory is made there. -/
theorem linked_key_is_spared :
    ∃ ps d', (collect { attempts := 3, workdir := "/work" } none).apply careful = (.ok ps, d') ∧
      ps.get .sshKey = some "/work/id" ∧
      d'.host.content? "/work/cloudgate_inventory" = some (Text.bytes oneProxy) ∧
      d'.host.content? "/work/id" = some (Text.bytes "secret") := by
  have hs : careful.host.content? "/work/id" = some (Text.bytes "secret") := by decide +kernel
  have hw : ((collect { attempts := 3, workdir := "/work" } none).apply careful).2.host.content?
      "/work/cloudgate_inventory" = some (Text.bytes oneProxy) := by decide +kernel
  have hr : (((collect { attempts := 3, workdir := "/work" } none).apply
      careful).1.toOption.bind fun ps => ps.get .sshKey) = some "/work/id" := by decide +kernel
  rcases hc : (collect { attempts := 3, workdir := "/work" } none).apply careful with
    ⟨e | ps, d'⟩ <;> rw [hc] at hr hw
  · cases hr
  obtain ⟨ts, key, -, hk, -, hpaths, h⟩ := collect_spares_key hc
  cases hk.symm.trans hr
  refine ⟨ps, d', rfl, hr, hw, (h _ hs).resolve_right ?_⟩
  rintro ⟨w, hm, ha, -⟩
  obtain hp | hp := hpaths w hm <;> rw [hp] at ha
  · exact ha (Host.apart_of_locations ["work", "cloudgate_inventory"] ["keys", "id"]
      (by decide +kernel) (by decide +kernel) (by decide))
  · exact ha (Host.apart_of_locations ["work", "ansible_container_init_config"] ["keys", "id"]
      (by decide +kernel) (by decide +kernel) (by decide))

/-- A key with the name of the inventory is lost to it. -/
theorem key_is_overwritten :
    careless.host.content? "/work/cloudgate_inventory" = some (Text.bytes "secret") ∧
    ∃ ps d', (collect { attempts := 3, workdir := "/work" } none).apply careless = (.ok ps, d') ∧
      ps.get .sshKey = some "/work/cloudgate_inventory" ∧
      d'.host.content? "/work/cloudgate_inventory" = some (Text.bytes oneProxy) ∧
      Text.bytes oneProxy ≠ Text.bytes "secret" := by
  have hw : ((collect { attempts := 3, workdir := "/work" } none).apply careless).2.host.content?
      "/work/cloudgate_inventory" = some (Text.bytes oneProxy) := by decide +kernel
  have hr : (((collect { attempts := 3, workdir := "/work" } none).apply
      careless).1.toOption.bind fun ps => ps.get .sshKey) =
        some "/work/cloudgate_inventory" := by decide +kernel
  rcases hc : (collect { attempts := 3, workdir := "/work" } none).apply careless with
    ⟨e | ps, d'⟩ <;> rw [hc] at hr hw
  · cases hr
  · exact ⟨by decide +kernel, ps, d', rfl, hr, hw, by decide +kernel⟩

end Interview

end Provisioner
