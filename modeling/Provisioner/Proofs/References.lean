import Provisioner.Engine.Client
import Provisioner.Proofs.Course
import Provisioner.Proofs.Filters
import Provisioner.Proofs.Paths
import Provisioner.Proofs.Table

namespace Provisioner

namespace Image

/-- A repository with the address of its registry. No colon in it begins a tag. -/
structure Repository where
  text : String
  tagless : ∀ before tag, text.toList = before ++ ':' :: tag → '/' ∈ tag
  digestless : '@' ∉ text.toList

structure Tag where
  text : String
  plain : ':' ∉ text.toList ∧ '/' ∉ text.toList ∧ '@' ∉ text.toList

inductive Name where
  | tagged (repository : Repository) (tag : Tag)
  | digested (repository : Repository) (digest : String)

namespace Name

def repository : Name → Repository
  | tagged repository _ | digested repository _ => repository

def text : Name → String
  | tagged repository tag => repository.text ++ ":" ++ tag.text
  | digested repository digest => repository.text ++ "@" ++ digest

def answersTo (n : Name) (filter : String) : Bool :=
  n.text == filter || n.repository.text == filter

end Name

namespace Reference

/-- The image that is pulled for a reference has this name. -/
def Means (r : Reference) : Name → Prop
  | .tagged repository tag => r.split = (repository.text, some tag.text)
  | .digested repository digest => r.split = (repository.text ++ "@" ++ digest, none)

def LeavesTagOut (r : Reference) : Prop := r.split = (r.text, some latest)

instance (r : Reference) : Decidable r.LeavesTagOut := inferInstanceAs (Decidable (_ = _))

theorem split_digested {r : Reference} (h : '@' ∈ r.text.toList) : r.split = (r.text, none) := by
  unfold split
  rw [if_pos (by simpa using h)]

theorem split_at_colon {r : Reference} {front tag : List Char} (hd : '@' ∉ r.text.toList)
    (h : r.text.toList = front ++ ':' :: tag) (hc : ':' ∉ tag) :
    r.split = if '/' ∈ tag then (r.text, some latest)
      else (String.ofList front, some (String.ofList tag)) := by
  unfold split
  rw [if_neg (by simpa using hd), h, Text.splitAtLast?_append hc]
  simp only [List.contains_iff_mem]

theorem split_without_colon {r : Reference} (hd : '@' ∉ r.text.toList) (h : ':' ∉ r.text.toList) :
    r.split = (r.text, some latest) := by
  unfold split
  rw [if_neg (by simpa using hd), Text.splitAtLast?_of_notMem h]

theorem split_tagged {r : Reference} {repository : Repository} {tag : Tag}
    (h : r.text = repository.text ++ ":" ++ tag.text) :
    r.split = (repository.text, some tag.text) := by
  have hs : r.text.toList = repository.text.toList ++ ':' :: tag.text.toList := by simp [h]
  obtain ⟨hc, hp, ht⟩ := tag.plain
  have hd : '@' ∉ r.text.toList := by simp [hs, repository.digestless, ht]
  rw [split_at_colon hd hs hc, if_neg hp, String.ofList_toList, String.ofList_toList]

theorem leavesTagOut_of_repository {r : Reference} {repository : Repository}
    (h : r.text = repository.text) : r.LeavesTagOut := by
  have hd : '@' ∉ r.text.toList := h ▸ repository.digestless
  obtain hn | ⟨before, tag, hs, hc⟩ := Text.exists_last ':' r.text.toList
  · exact split_without_colon hd hn
  · exact (split_at_colon hd hs hc).trans (if_pos (repository.tagless before tag (h ▸ hs)))

/-- What answers to the text of a reference is meant by it, unless only the repository is named. -/
theorem means_of_answersTo {r : Reference} {n : Name} (h : n.answersTo r.text = true)
    (hr : ¬ r.LeavesTagOut) : r.Means n ∧ n.text = r.text := by
  obtain ht | hn := Bool.or_eq_true .. |>.mp h
  · have ht : n.text = r.text := beq_iff_eq.mp ht
    refine ⟨?_, ht⟩
    cases n with
    | tagged repository tag => exact split_tagged ht.symm
    | digested repository digest =>
      have hd : '@' ∈ r.text.toList := by simp [← ht, Name.text]
      exact (split_digested hd).trans (congrArg (·, none) ht.symm)
  · exact absurd (leavesTagOut_of_repository (beq_iff_eq.mp hn).symm) hr

end Reference

end Image

namespace Engine

structure StoredImage where
  id : String
  names : List Image.Name

def StoredImage.isListed (q : Request) (i : StoredImage) : Bool :=
  (q.wanted "reference").all fun texts => texts.any fun text => i.names.any (·.answersTo text)

/-- A daemon that lists the images of its store that a request asks for, and keeps all of them. -/
def Transport.ListsImages {τ : Type} (t : Transport τ) (store : τ → List StoredImage) : Prop :=
  ∀ q s, q.path = "/images/json" →
    store (t.exchange q s).2 = store s ∧
      ∀ images, result .listImages (list image) (t.exchange q s).1 = .ok images →
        images.map (·.id) = ((store s).filter (·.isListed q)).map (·.id)

theorem isListed_listImages (r : Image.Reference) (i : StoredImage) :
    i.isListed (request (.listImages r)) = i.names.any (·.answersTo r.text) := by
  simp [StoredImage.isListed, Request.wanted, request]

/-- Where images are listed for a reference, one is stored that answers to its text. -/
theorem Transport.ListsImages.answers {τ : Type} {t : Transport τ} {store : τ → List StoredImage}
    (ht : t.ListsImages store) {r : Image.Reference} {d : τ} {images : List ImageListing}
    (ha : ((daemon t).answer (.listImages r) d).1 = .ok images) (hi : images ≠ []) :
    ∃ i ∈ store ((daemon t).answer (.listImages r) d).2, ∃ n ∈ i.names,
      n.answersTo r.text = true := by
  obtain ⟨hs, hl⟩ := ht (request (.listImages r)) d rfl
  have hm : images.map (·.id) ≠ [] := fun h => hi (List.map_eq_nil_iff.mp h)
  rw [hl images ha] at hm
  obtain ⟨i, hi⟩ := List.exists_mem_of_ne_nil _ fun h => hm (List.map_eq_nil_iff.mpr h)
  obtain ⟨hi, hn⟩ := List.mem_filter.mp hi
  rw [isListed_listImages] at hn
  obtain ⟨n, hn, ha⟩ := List.any_eq_true.mp hn
  exact ⟨i, hs ▸ hi, n, hn, ha⟩

end Engine

namespace Site

variable {τ κ : Type} {site : Site τ κ} {t : Engine.Transport τ}
  {store : τ → List Engine.StoredImage}

/-- An image that is found to be present is the one that the reference means, with the text of the
reference for its name, and it was asked for only once. References that leave the tag out are
another matter: they are answered to by every image of the repository. -/
theorem present_is_meant (hd : site.daemon = Engine.daemon t) (ht : t.ListsImages store)
    {r : Image.Reference} (hr : ¬ r.LeavesTagOut) {k : Nat} (s : Session τ κ)
    (h : ((site.ensureImage r).apply s).1 = .ok (.present k)) :
    (∃ images, ((site.ensureImage r).apply s).2.events =
        s.events ++ [.call (.listImages r) (.ok images)]) ∧
      ∃ i ∈ store ((site.ensureImage r).apply s).2.daemon, ∃ n ∈ i.names,
        r.Means n ∧ n.text = r.text := by
  obtain ⟨ms, hp, hy⟩ := (site.ensureImage_keeps r).yields s
  have he := hp.events
  obtain ⟨hg, hd'⟩ := hp.gave
  have hw := hy _ h
  generalize recorded (incidents ms) = w at hw he hg hd'
  cases hw with
  | present images hi =>
    obtain ⟨ha, -⟩ := hg
    rw [hd] at ha
    obtain ⟨i, hi, n, hn, hnr⟩ := ht.answers ha hi
    rw [hd', hd]
    exact ⟨⟨images, he⟩, i, hi, n, hn, Image.Reference.means_of_answersTo hnr hr⟩

def releaseName : Image.Name :=
  .tagged ⟨"ubuntu", fun _ _ h => absurd (h ▸ by simp : ':' ∈ "ubuntu".toList) (by decide),
    by decide⟩ ⟨"20.04", by decide⟩

def release : Engine.StoredImage := ⟨"release", [releaseName]⟩

def releaseListed : String :=
  "[\x7b\"Id\": \"release\", \"ParentId\": \"\", \"RepoTags\": [\"ubuntu:20.04\"], " ++
    "\"RepoDigests\": [], \"Created\": 0, \"Size\": 0, \"SharedSize\": 0, \"Labels\": null, " ++
    "\"Containers\": 0\x7d]"

def depot : Engine.Transport Unit where
  exchange q s := (⟨200, Text.bytes (if release.isListed q then releaseListed else "[]")⟩, s)

theorem depot_listsImages : depot.ListsImages fun _ => [release] := by
  intro q s _
  refine ⟨rfl, fun images h => ?_⟩
  cases hq : release.isListed q with
  | true =>
    have hr : Engine.result .listImages (Engine.list Engine.image)
        ⟨200, Text.bytes releaseListed⟩ = .ok [⟨"release", ["ubuntu:20.04"]⟩] := by decide +kernel
    simp only [depot, hq] at h
    cases hr.symm.trans h
    rw [List.filter_cons_of_pos hq]
    rfl
  | false =>
    have hr : Engine.result .listImages (Engine.list Engine.image) ⟨200, Text.bytes "[]"⟩ =
        .ok [] := by decide +kernel
    simp only [depot, hq] at h
    cases hr.symm.trans h
    rw [List.filter_cons_of_neg (by simp [hq])]
    rfl

def depotSite : Site Unit (TerminalOn Unit) where
  daemon := Engine.daemon depot
  console := .screen
  host := rehearsal.host
  settings := {}

def depotStart : Session Unit (TerminalOn Unit) := ⟨(), ⟨[], ()⟩, [], {}, []⟩

theorem depot_present :
    ¬ (⟨"ubuntu:20.04"⟩ : Image.Reference).LeavesTagOut ∧
      ((depotSite.ensureImage ⟨"ubuntu:20.04"⟩).apply depotStart).1 = .ok (.present 1) ∧
      ∃ i ∈ [release], ∃ n ∈ i.names,
        (⟨"ubuntu:20.04"⟩ : Image.Reference).Means n ∧ n.text = "ubuntu:20.04" := by
  have hr : ¬ (⟨"ubuntu:20.04"⟩ : Image.Reference).LeavesTagOut := by decide +kernel
  have h : ((depotSite.ensureImage ⟨"ubuntu:20.04"⟩).apply depotStart).1 = .ok (.present 1) := by
    decide +kernel
  exact ⟨hr, h, (present_is_meant rfl depot_listsImages hr depotStart h).2⟩

/-- Where the tag is left out, an image is present that has another tag than the one that would be
pulled. -/
theorem depot_lacks_latest :
    depot.ListsImages (fun _ => [release]) ∧ depotSite.daemon = Engine.daemon depot ∧
      ((depotSite.ensureImage ⟨"ubuntu"⟩).apply depotStart).1 = .ok (.present 1) ∧
      ∀ i ∈ [release], ∀ n ∈ i.names, ¬ (⟨"ubuntu"⟩ : Image.Reference).Means n := by
  refine ⟨depot_listsImages, rfl, by decide +kernel, fun i hi n hn => ?_⟩
  cases List.mem_singleton.mp hi
  cases List.mem_singleton.mp hn
  have h : (⟨"ubuntu"⟩ : Image.Reference).split ≠ ("ubuntu", some "20.04") := by decide +kernel
  exact h

end Site

end Provisioner
