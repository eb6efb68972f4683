import DeviceBus.CommandLine.Listener
import DeviceBus.Proofs.Broker.KeepAlive
import DeviceBus.Proofs.Bytes.Hex
import DeviceBus.Proofs.Payload.Acceptance
import DeviceBus.Proofs.Text.Blank

/-! Which settings a listener takes. Six checks look at one setting each, and the first of them that finds a flaw
decides what is reported, whatever is wrong with the settings after it. A key and a vector may be spelled in any way:
the listener decrypts with the bytes themselves. -/
namespace DeviceBus.CommandLine

open Broker

variable {t : Target}

structure Presentable (t : Target) : Prop where
  filled : ¬ Blank.Blanks t.host.toList
  named : t.clientId ≠ some ""

private theorem settings_of_blank (blank : Blank.Blanks t.host.toList) : t.settings = .error .blankHost := by
  have refused : Settings.ofHost t.host = .error .blankHost := if_pos (Blank.trim_isEmpty_iff.mpr blank)
  rw [Target.settings, refused]
  rfl

private theorem settings_of_filled (filled : ¬ Blank.Blanks t.host.toList) :
    t.settings = if t.clientId = some "" then .error .emptyClientId else .ok ⟨t.host, t.port, t.keepAlive, t.clientId⟩ := by
  have taken : Settings.ofHost t.host = .ok ⟨t.host, Settings.defaultPort, Settings.defaultKeepAlive, none⟩ :=
    Settings.ofHost_ok_iff.mpr ⟨Bool.eq_false_iff.mpr (mt Blank.trim_isEmpty_iff.mp filled), rfl⟩
  rw [Target.settings, taken]
  cases t.clientId with
  | none => simp [bind, Except.bind, pure, Except.pure, Settings.withPort, Settings.withKeepAlive]
  | some name => simp [bind, Except.bind, Settings.withClientId, Settings.withPort, Settings.withKeepAlive]

private theorem settings_of_unnamed (filled : ¬ Blank.Blanks t.host.toList) (unnamed : t.clientId = some "") :
    t.settings = .error .emptyClientId := by
  rw [settings_of_filled filled, if_pos unnamed]

theorem Presentable.settings (presentable : Presentable t) :
    t.settings = .ok ⟨t.host, t.port, t.keepAlive, t.clientId⟩ := by
  rw [settings_of_filled presentable.filled, if_neg presentable.named]

namespace Listener

/-! Bytes in hexadecimal digits. -/

/-- A text that spells bytes, with white space around it. -/
def Written (value : String) (bytes : Bytes) : Prop :=
  ∃ before digits after, value.toList = before ++ (digits ++ after) ∧ Blank.Blanks before ∧ Blank.Blanks after ∧
    Hex.Spells digits bytes

/-- A text that is so many digits, with white space around them. -/
def IsHex (value : String) (count : Nat) : Prop :=
  (Blank.trim value.toList).length = count ∧ ∀ c ∈ Blank.trim value.toList, Hex.IsDigit c

variable {value : String} {bytes : Bytes} {fault : Hex.Fault}

def inside (value : String) : String := String.ofList (Blank.trim value.toList)

private theorem bare_of_digits {text : List Char} (digits : ∀ c ∈ text, Hex.IsDigit c) : Blank.Bare text := by
  have table : ∀ k < 0x80, ∀ n ∈ Hex.digit? k.toUInt8, Blank.isBlank (Char.ofNat k) = false := by decide +kernel
  refine Blank.bare_of_unblank fun c member => ?_
  obtain ⟨n, digit⟩ := digits c member
  obtain ⟨small, valued⟩ := digit.byte
  rw [← Char.ofNat_toNat c]
  exact table c.toNat small n valued

theorem written_iff : Written value bytes ↔ Hex.Spells (Blank.trim value.toList) bytes := by
  constructor
  · rintro ⟨before, digits, after, same, early, late, spells⟩
    rwa [Blank.trim_eq_iff.mpr ⟨before, after, same, early, late, bare_of_digits spells.isDigit⟩]
  · intro spells
    obtain ⟨before, after, same, early, late, -⟩ := Blank.trim_eq_iff.mp (Eq.refl (Blank.trim value.toList))
    exact ⟨before, _, after, same, early, late, spells⟩

theorem decodeHex_eq_ok_iff : decodeHex value = .ok bytes ↔ Written value bytes := by
  rw [decodeHex, Hex.decode_eq_ok_iff, String.toList_ofList, written_iff]

theorem decodeHex_eq_error_iff : decodeHex value = .error fault ↔ Hex.Misspelt (inside value) fault :=
  Hex.decode_eq_error_iff

theorem exists_written_iff {length : Nat} :
    (∃ bytes, Written value bytes ∧ bytes.length = length) ↔ IsHex value (2 * length) := by
  constructor
  · rintro ⟨bytes, written, rfl⟩
    have spells := written_iff.mp written
    exact ⟨spells.length_eq, spells.isDigit⟩
  · rintro ⟨count, digits⟩
    obtain ⟨bytes, spells, length⟩ := Hex.exists_spells count digits
    exact ⟨bytes, written_iff.mpr spells, length⟩

theorem exists_key_iff :
    (∃ key, Written value key ∧ key.length ∈ [16, 24, 32]) ↔ ∃ count ∈ [32, 48, 64], IsHex value count := by
  constructor
  · rintro ⟨key, written, fits⟩
    refine ⟨2 * key.length, ?_, exists_written_iff.mp ⟨key, written, rfl⟩⟩
    simp only [List.mem_cons, List.not_mem_nil, or_false] at fits ⊢
    omega
  · rintro ⟨count, listed, hex⟩
    have even : count = 2 * (count / 2) ∧ count / 2 ∈ [16, 24, 32] := by
      simp only [List.mem_cons, List.not_mem_nil, or_false] at listed ⊢
      omega
    rw [even.1] at hex
    obtain ⟨key, written, length⟩ := exists_written_iff.mpr hex
    exact ⟨key, written, length ▸ even.2⟩

theorem Written.unique {other : Bytes} (written : Written value bytes) (also : Written value other) : bytes = other :=
  (written_iff.mp written).unique (written_iff.mp also)

private theorem Written.not_misspelt (written : Written value bytes) : ¬ Hex.Misspelt (inside value) fault := by
  intro misspelt
  have spells := written_iff.mp written
  rw [← String.toList_ofList (l := Blank.trim value.toList), ← inside] at spells
  exact misspelt.not_spells spells

/-! The checks. -/

/-- What one of the checks finds wrong with the setting it looks at. -/
inductive Flawed (o : Options) : SetupFlaw → Prop
  | blankHost (blank : Blank.Blanks o.target.host.toList) : Flawed o (.settings .blankHost)
  | emptyClientId (unnamed : o.target.clientId = some "") : Flawed o (.settings .emptyClientId)
  | keyNotHex {fault : Hex.Fault} (misspelt : Hex.Misspelt (inside o.key) fault) : Flawed o (.keyNotHex fault)
  | ivNotHex {fault : Hex.Fault} (misspelt : Hex.Misspelt (inside o.iv) fault) : Flawed o (.ivNotHex fault)
  | keyLength {key : Bytes} (written : Written o.key key) (other : key.length ∉ [16, 24, 32]) :
      Flawed o (.cipher (.keyLength key.length))
  | ivLength {iv : Bytes} (written : Written o.iv iv) (other : iv.length ≠ 16) : Flawed o (.cipher (.ivLength iv.length))

def SetupFlaw.place : SetupFlaw → Nat
  | .settings .blankHost => 0
  | .settings .emptyClientId => 1
  | .keyNotHex _ => 2
  | .ivNotHex _ => 3
  | .cipher (.keyLength _) => 4
  | .cipher (.ivLength _) => 5

variable {o : Options} {flaw : SetupFlaw}

section Places

/-! A check that finds nothing leaves its place empty. -/

private theorem Flawed.place_lt (flawed : Flawed o flaw) : flaw.place < 6 := by
  cases flawed <;> simp [SetupFlaw.place]

private theorem Flawed.place_ne_zero (flawed : Flawed o flaw) (filled : ¬ Blank.Blanks o.target.host.toList) :
    flaw.place ≠ 0 := by
  cases flawed with
  | blankHost blank => exact absurd blank filled
  | _ => nofun

private theorem Flawed.place_ne_one (flawed : Flawed o flaw) (named : o.target.clientId ≠ some "") : flaw.place ≠ 1 := by
  cases flawed with
  | emptyClientId unnamed => exact absurd unnamed named
  | _ => nofun

private theorem Flawed.place_ne_two (flawed : Flawed o flaw) {key : Bytes} (written : Written o.key key) :
    flaw.place ≠ 2 := by
  cases flawed with
  | keyNotHex misspelt => exact absurd misspelt written.not_misspelt
  | _ => nofun

private theorem Flawed.place_ne_three (flawed : Flawed o flaw) {iv : Bytes} (written : Written o.iv iv) : flaw.place ≠ 3 := by
  cases flawed with
  | ivNotHex misspelt => exact absurd misspelt written.not_misspelt
  | _ => nofun

private theorem Flawed.place_ne_four (flawed : Flawed o flaw) {key : Bytes} (written : Written o.key key)
    (fits : key.length ∈ [16, 24, 32]) : flaw.place ≠ 4 := by
  cases flawed with
  | keyLength also other => exact absurd (written.unique also ▸ fits) other
  | _ => nofun

private theorem Flawed.place_ne_five (flawed : Flawed o flaw) {iv : Bytes} (written : Written o.iv iv)
    (fits : iv.length = 16) :
    flaw.place ≠ 5 := by
  cases flawed with
  | ivLength also other => exact absurd (written.unique also ▸ fits) other
  | _ => nofun

theorem Flawed.unique {other : SetupFlaw} (flawed : Flawed o flaw) (also : Flawed o other) (same : flaw.place = other.place) :
    flaw = other := by
  cases flawed with
  | blankHost => cases also <;> first | rfl | cases same
  | emptyClientId => cases also <;> first | rfl | cases same
  | keyNotHex misspelt =>
    cases also with
    | keyNotHex misspelt' => rw [misspelt.unique misspelt']
    | _ => cases same
  | ivNotHex misspelt =>
    cases also with
    | ivNotHex misspelt' => rw [misspelt.unique misspelt']
    | _ => cases same
  | keyLength written =>
    cases also with
    | keyLength written' => rw [written.unique written']
    | _ => cases same
  | ivLength written =>
    cases also with
    | ivLength written' => rw [written.unique written']
    | _ => cases same

end Places

/-! What the checks come to. -/

/-- What a setup returns, with what its checks have found on the way. -/
inductive Verdict (o : Options) : Except SetupFlaw (Settings × CipherContext) → Prop
  | blankHost (blank : Blank.Blanks o.target.host.toList) : Verdict o (.error (.settings .blankHost))
  | emptyClientId (filled : ¬ Blank.Blanks o.target.host.toList) (unnamed : o.target.clientId = some "") :
      Verdict o (.error (.settings .emptyClientId))
  | keyNotHex {fault : Hex.Fault} (target : Presentable o.target) (misspelt : Hex.Misspelt (inside o.key) fault) :
      Verdict o (.error (.keyNotHex fault))
  | ivNotHex {key : Bytes} {fault : Hex.Fault} (target : Presentable o.target) (written : Written o.key key)
      (misspelt : Hex.Misspelt (inside o.iv) fault) : Verdict o (.error (.ivNotHex fault))
  | keyLength {key iv : Bytes} (target : Presentable o.target) (written : Written o.key key) (also : Written o.iv iv)
      (other : key.length ∉ [16, 24, 32]) : Verdict o (.error (.cipher (.keyLength key.length)))
  | ivLength {key iv : Bytes} (target : Presentable o.target) (written : Written o.key key) (also : Written o.iv iv)
      (fits : key.length ∈ [16, 24, 32]) (other : iv.length ≠ 16) : Verdict o (.error (.cipher (.ivLength iv.length)))
  | accepted {key iv : Bytes} {context : CipherContext} (target : Presentable o.target) (written : Written o.key key)
      (also : Written o.iv iv) (fits : key.length ∈ [16, 24, 32]) (whole : iv.length = 16)
      (built : CipherContext.ofBytes key iv = .ok context) :
      Verdict o (.ok (⟨o.target.host, o.target.port, o.target.keepAlive, o.target.clientId⟩, context))

theorem setup_verdict (o : Options) : Verdict o (setup o) := by
  unfold setup
  by_cases blank : Blank.Blanks o.target.host.toList
  · rw [settings_of_blank blank]
    exact .blankHost blank
  by_cases unnamed : o.target.clientId = some ""
  · rw [settings_of_unnamed blank unnamed]
    exact .emptyClientId blank unnamed
  have target : Presentable o.target := ⟨blank, unnamed⟩
  rw [target.settings]
  cases read : decodeHex o.key with
  | error fault => exact .keyNotHex target (decodeHex_eq_error_iff.mp read)
  | ok key =>
    have written := decodeHex_eq_ok_iff.mp read
    cases readIv : decodeHex o.iv with
    | error fault => exact .ivNotHex target written (decodeHex_eq_error_iff.mp readIv)
    | ok iv =>
      have also := decodeHex_eq_ok_iff.mp readIv
      by_cases fits : key.length ∈ [16, 24, 32]
      · by_cases whole : iv.length = 16
        · obtain ⟨context, built⟩ := CipherContext.exists_ofBytes fits whole
          simp only [Except.mapError, bind, Except.bind, built]
          exact .accepted target written also fits whole built
        · simp only [Except.mapError, bind, Except.bind, CipherContext.ofBytes_of_fit fits whole]
          exact .ivLength target written also fits whole
      · simp only [Except.mapError, bind, Except.bind, CipherContext.ofBytes_of_misfit iv fits]
        exact .keyLength target written also fits

section Precedence

def Clear (o : Options) (place : Nat) : Prop := ∀ flaw, Flawed o flaw → place ≤ flaw.place

theorem Clear.succ {place : Nat} (clear : Clear o place) (empty : ∀ flaw, Flawed o flaw → flaw.place ≠ place) :
    Clear o (place + 1) :=
  fun flaw flawed => Nat.lt_of_le_of_ne (clear flaw flawed) (empty flaw flawed).symm

private theorem clear_of_filled (filled : ¬ Blank.Blanks o.target.host.toList) : Clear o 1 :=
  Clear.succ (fun _ _ => Nat.zero_le _) fun _ flawed => flawed.place_ne_zero filled

private theorem clear_of_presentable (target : Presentable o.target) : Clear o 2 :=
  (clear_of_filled target.filled).succ fun _ flawed => flawed.place_ne_one target.named

private theorem clear_of_key (target : Presentable o.target) {key : Bytes} (written : Written o.key key) : Clear o 3 :=
  (clear_of_presentable target).succ fun _ flawed => flawed.place_ne_two written

private theorem clear_of_written (target : Presentable o.target) {key iv : Bytes} (written : Written o.key key)
    (also : Written o.iv iv) : Clear o 4 :=
  (clear_of_key target written).succ fun _ flawed => flawed.place_ne_three also

private theorem clear_of_fit (target : Presentable o.target) {key iv : Bytes} (written : Written o.key key)
    (also : Written o.iv iv) (fits : key.length ∈ [16, 24, 32]) : Clear o 5 :=
  (clear_of_written target written also).succ fun _ flawed => flawed.place_ne_four written fits

private theorem flawed_of_setup (refused : setup o = .error flaw) : Flawed o flaw ∧ Clear o flaw.place := by
  have verdict := setup_verdict o
  rw [refused] at verdict
  cases verdict with
  | blankHost blank => exact ⟨.blankHost blank, fun _ _ => Nat.zero_le _⟩
  | emptyClientId filled unnamed => exact ⟨.emptyClientId unnamed, clear_of_filled filled⟩
  | keyNotHex target misspelt => exact ⟨.keyNotHex misspelt, clear_of_presentable target⟩
  | ivNotHex target written misspelt => exact ⟨.ivNotHex misspelt, clear_of_key target written⟩
  | keyLength target written also other => exact ⟨.keyLength written other, clear_of_written target written also⟩
  | ivLength target written also fits other => exact ⟨.ivLength also other, clear_of_fit target written also fits⟩

private theorem not_flawed_of_setup {made : Settings × CipherContext} (accepted : setup o = .ok made) : ¬ Flawed o flaw := by
  intro flawed
  have verdict := setup_verdict o
  rw [accepted] at verdict
  cases verdict with
  | accepted target written also fits whole =>
    have late := (clear_of_fit target written also fits).succ fun _ flawed => flawed.place_ne_five also whole
    exact absurd flawed.place_lt (Nat.not_lt.mpr (late flaw flawed))

theorem setup_eq_error_iff : setup o = .error flaw ↔ Flawed o flaw ∧ Clear o flaw.place := by
  refine ⟨flawed_of_setup, fun ⟨flawed, clear⟩ => ?_⟩
  cases outcome : setup o with
  | ok made => exact absurd flawed (not_flawed_of_setup outcome)
  | error other =>
    obtain ⟨found, first⟩ := flawed_of_setup outcome
    rw [found.unique flawed (Nat.le_antisymm (first flaw flawed) (clear other found))]

end Precedence

theorem setup_of_written {key iv : Bytes} (target : Presentable o.target) (written : Written o.key key)
    (also : Written o.iv iv) (fits : key.length ∈ [16, 24, 32]) (whole : iv.length = 16) :
    ∃ context, setup o = .ok (⟨o.target.host, o.target.port, o.target.keepAlive, o.target.clientId⟩, context) ∧
      CipherContext.ofBytes key iv = .ok context := by
  obtain ⟨context, built⟩ := CipherContext.exists_ofBytes fits whole
  refine ⟨context, ?_, built⟩
  rw [setup, target.settings, decodeHex_eq_ok_iff.mpr written, decodeHex_eq_ok_iff.mpr also]
  simp only [Except.mapError, bind, Except.bind, built]
  rfl

theorem setup_eq_ok_iff : (∃ made, setup o = .ok made) ↔
    Presentable o.target ∧ (∃ key, Written o.key key ∧ key.length ∈ [16, 24, 32]) ∧
      ∃ iv, Written o.iv iv ∧ iv.length = 16 := by
  constructor
  · rintro ⟨made, accepted⟩
    have verdict := setup_verdict o
    rw [accepted] at verdict
    cases verdict with
    | accepted target written also fits whole => exact ⟨target, ⟨_, written, fits⟩, _, also, whole⟩
  · rintro ⟨target, ⟨key, written, fits⟩, iv, also, whole⟩
    obtain ⟨context, accepted, -⟩ := setup_of_written target written also fits whole
    exact ⟨_, accepted⟩

theorem error_kind (flaw : SetupFlaw) : flaw.error.kind = .config := by
  cases flaw with
  | settings => rfl
  | keyNotHex => rfl
  | ivNotHex => rfl
  | cipher flaw => cases flaw <;> rfl

/-- Settings are taken if none of the six checks finds a flaw, and else the first flaw is told, as one of the configuration.
However a key and a vector are spelled, payloads are decrypted as under the bytes themselves. -/
theorem setup_by_checks (o : Options) :
    ((∃ made, setup o = .ok made) ↔
      ¬ Blank.Blanks o.target.host.toList ∧ o.target.clientId ≠ some "" ∧
        (∃ count ∈ [32, 48, 64], IsHex o.key count) ∧ IsHex o.iv 32) ∧
    (∀ flaw, setup o = .error flaw ↔ Flawed o flaw ∧ ∀ other, Flawed o other → flaw.place ≤ other.place) ∧
    (∀ flaw, setup o = .error flaw → flaw.error.kind = .config) ∧
    ∀ key iv : Bytes, key.length ∈ [16, 24, 32] → iv.length = 16 → Presentable o.target →
      Written o.key key → Written o.iv iv →
      ∃ context, setup o = .ok (⟨o.target.host, o.target.port, o.target.keepAlive, o.target.clientId⟩, context) ∧
        CipherContext.ofBytes key iv = .ok context ∧
        ∀ payload, context.decryptFrom key iv payload = (context.decrypt payload).mapError .payload := by
  refine ⟨?_, fun flaw => setup_eq_error_iff, fun flaw _ => error_kind flaw, ?_⟩
  · have vector : (∃ iv, Written o.iv iv ∧ iv.length = 16) ↔ IsHex o.iv 32 := exists_written_iff
    rw [setup_eq_ok_iff, exists_key_iff, vector]
    exact ⟨fun ⟨target, key, iv⟩ => ⟨target.filled, target.named, key, iv⟩,
      fun ⟨filled, named, key, iv⟩ => ⟨⟨filled, named⟩, key, iv⟩⟩
  · intro key iv fits whole target written also
    obtain ⟨context, accepted, built⟩ := setup_of_written target written also fits whole
    exact ⟨context, accepted, built, fun payload => CipherContext.decryptFrom_of_built built payload⟩

theorem setup_by_checks_of_mixed_case :
    let bytes : Bytes := [0, 17, 34, 51, 68, 85, 102, 119, 136, 153, 170, 187, 204, 221, 238, 255]
    let spelled : Options :=
      ⟨⟨"bus", 1883, 60, none⟩, "\t00112233445566778899aAbBcCdDeEfF ", "00112233445566778899AABBCCDDEEFF", 1⟩
    let flawed : Options := ⟨⟨"bus", 1883, 60, some ""⟩, "0", "0x", 1⟩
    (∃ context, setup spelled = .ok (⟨"bus", 1883, 60, none⟩, context) ∧
      CipherContext.ofBytes bytes bytes = .ok context) ∧
      setup flawed = .error (.settings .emptyClientId) := by
  intro bytes spelled flawed
  have filled : ¬ Blank.Blanks "bus".toList := mt Blank.trim_isEmpty_iff.mpr (by decide)
  have written : Written spelled.key bytes := decodeHex_eq_ok_iff.mp (by decide +kernel)
  have also : Written spelled.iv bytes := decodeHex_eq_ok_iff.mp (by decide +kernel)
  obtain ⟨context, accepted, built, -⟩ :=
    (setup_by_checks spelled).2.2.2 bytes bytes (by decide) rfl ⟨filled, nofun⟩ written also
  have refused := ((setup_by_checks flawed).2.1 _).mpr ⟨.emptyClientId rfl, clear_of_filled filled⟩
  exact ⟨⟨context, accepted, built⟩, refused⟩

end Listener
end DeviceBus.CommandLine
