import Provisioner.Proofs.Checking
import Provisioner.Property.File

namespace Provisioner

namespace Properties

/-- Each of the properties was checked, and from then on only files were written. -/
def Standing (ps : Properties) (h : Host) : Prop :=
  ∀ p v, ps.get p = some v → ∃ h₀ value, Host.Later h₀ h ∧ p.check h₀ value = .ok v

variable {ps ps' : Properties} {h h' : Host}

theorem standing_empty (h : Host) : Standing {} h := by
  intro p v hv
  cases p <;> cases hv

theorem Standing.later (hs : ps.Standing h) (hl : h.Later h') : ps.Standing h' := by
  intro p v hv
  obtain ⟨h₀, value, hl₀, hc⟩ := hs p v hv
  exact ⟨h₀, value, hl₀.trans hl, hc⟩

theorem insert_ok {name value : String} (hi : ps.insert h name value = .ok ps') :
    ∃ p v, p.check h value = .ok v ∧ ps' = ps.set p v := by
  unfold insert at hi
  split at hi
  · exact absurd hi nofun
  · rename_i p hp
    cases hc : p.check h value with
    | error e =>
      rw [hc] at hi
      exact absurd hi nofun
    | ok v =>
      rw [hc] at hi
      exact ⟨p, v, hc, (Except.ok.inj hi).symm⟩

theorem Standing.insert (hs : ps.Standing h) {name value : String}
    (hi : ps.insert h name value = .ok ps') : ps'.Standing h := by
  obtain ⟨p, v, hc, rfl⟩ := insert_ok hi
  intro q w hw
  rw [get_set] at hw
  split at hw
  · subst q
    cases hw
    exact ⟨h, value, .refl h, hc⟩
  · exact hs q w hw

/-- An entry that is not taken leaves the properties as they are. -/
theorem accept_refused {parsed : ParsedProperties} {entry : String × String} {e : ConfigError}
    (he : parsed.properties.insert h entry.1 entry.2 = .error e) :
    (accept h parsed entry).properties = parsed.properties := by
  unfold accept
  rw [he]
  split <;> first | rfl | contradiction

/-- What lasts while values are stored holds of what a file is read as. -/
theorem parse_induct {P : Properties → Prop} (h : Host) (content : String) (hz : P {})
    (hi : ∀ ps ps' name value, P ps → ps.insert h name value = .ok ps' → P ps') :
    P (parse h content).properties := by
  have hf (entries : List (String × String)) (parsed : ParsedProperties)
      (hp : P parsed.properties) : P (entries.foldl (accept h) parsed).properties := by
    induction entries generalizing parsed with
    | nil => exact hp
    | cons entry entries ih =>
      refine ih _ ?_
      cases he : parsed.properties.insert h entry.1 entry.2 with
      | error e => rwa [accept_refused he]
      | ok ps =>
        have ha : (accept h parsed entry).properties = ps := by
          unfold accept
          rw [he]
        exact ha ▸ hi _ _ _ _ hp he
  exact hf _ _ hz

theorem parse_standing (h : Host) (content : String) : (parse h content).properties.Standing h :=
  parse_induct (P := fun ps => ps.Standing h) h content (standing_empty h)
    fun _ _ _ _ hs hi => hs.insert hi

theorem load_ok {path : String} {parsed : ParsedProperties} (hl : load h path = .ok parsed) :
    ∃ content, parse h content = parsed := by
  unfold load at hl
  split at hl
  · exact ⟨_, Except.ok.inj hl⟩
  · exact absurd hl nofun

theorem load_standing {path : String} {parsed : ParsedProperties}
    (hl : load h path = .ok parsed) : parsed.properties.Standing h := by
  obtain ⟨content, rfl⟩ := load_ok hl
  exact parse_standing h content

theorem later_of_persist {path : String} (hp : ps.persist h path = .ok h') : h.Later h' := by
  unfold persist at hp
  split at hp
  · rename_i hw
    rw [← Except.ok.inj hp]
    exact Host.later_of_write hw
  · exact absurd hp nofun

end Properties

end Provisioner
