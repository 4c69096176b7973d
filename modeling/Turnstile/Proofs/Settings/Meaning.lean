import Turnstile.Proofs.Text.Readers
import Turnstile.Proofs.Text.Trimming
import Turnstile.Settings.Variables
import Turnstile.Text.Basic

/-!
# What variables say

A variable that is missing or blank says what its default is; any other one says what its trimmed
text means. The readers of variables yield exactly that, so what a text means is given here without
them: a number by its digits, everything else by its name.
-/

namespace Turnstile.Settings

variable {vars : Variables} {name raw : String}

/-! ## The meaning of a text -/

/-- The trimmed text writes a number of 64 bits, perhaps after a plus sign. -/
def WritesNumber (raw : String) (n : UInt64) : Prop :=
  Text.natural? (Text.trim raw).toList = some n.toNat

/-- The trimmed text is the name of a truth value. -/
def NamesFlag (raw : String) (flag : Bool) : Prop := Text.trim raw = toString flag

/-- An algorithm's name, with its hyphens and without them. -/
def spellings (algorithm : Token.Algorithm) : List String :=
  [algorithm.name, String.ofList (algorithm.name.toList.filter (· ≠ '-'))]

/-- The trimmed text is a spelling of an algorithm's name, up to letter case and with underscores as
good as hyphens. -/
def NamesAlgorithm (raw : String) (algorithm : Token.Algorithm) : Prop :=
  ((Text.toAsciiUpper (Text.trim raw)).map fun c => if c = '_' then '-' else c) ∈
    spellings algorithm

/-- The trimmed text is the name of a way to wait, up to letter case. -/
def NamesKind (raw : String) (kind : Lock.Kind) : Prop :=
  Text.toAsciiLower (Text.trim raw) = kind.name

/-- The trimmed text is the name of a binding, up to letter case. -/
def NamesBinding (raw : String) (binding : Binding) : Prop :=
  Text.toAsciiLower (Text.trim raw) = binding.name

/-- The fault of a reader has no part in what it yields. -/
theorem mapError_eq_ok_iff {ε ε' α : Type} {read : Except ε α} {wrap : ε → ε'} {a : α} :
    read.mapError wrap = .ok a ↔ read = .ok a := by
  cases read <;> simp [Except.mapError]

/-- Digits are read if the number that they go on with stays below 64 bits. -/
theorem readDigits_eq_ok_iff {digits : List Char} {start : Nat} {n : UInt64}
    (hstart : start < UInt64.size) : readDigits start digits = .ok n ↔
      (∀ c ∈ digits, c.isDigit = true) ∧
        digits.foldl (fun n c => 10 * n + (c.toNat - 48)) start = n.toNat := by
  induction digits generalizing start with
  | nil =>
    rw [readDigits, Except.ok.injEq, List.foldl_nil, ← UInt64.toNat_inj,
      UInt64.toNat_ofNat_of_lt' hstart]
    simp
  | cons c digits ih =>
    rw [readDigits, List.forall_mem_cons, List.foldl_cons, digitValue?]
    by_cases hc : c.isDigit = true
    · rw [if_pos hc]
      dsimp only
      by_cases hsize : 10 * start + (c.toNat - 48) < UInt64.size
      · rw [if_pos hsize, ih hsize, and_assoc, and_iff_right hc]
      · -- The number only grows, so that it is too large in the end as well.
        have hgrows (digits : List Char) (start : Nat) :
            start ≤ digits.foldl (fun n c => 10 * n + (c.toNat - 48)) start := by
          induction digits generalizing start with
          | nil => exact le_refl start
          | cons c digits ih =>
            have hstep : start ≤ 10 * start + (c.toNat - 48) := by omega
            exact hstep.trans (ih _)
        have hle := hgrows digits (10 * start + (c.toNat - 48))
        have hlt := n.toNat_lt_size
        rw [if_neg hsize]
        refine iff_of_false nofun fun h => ?_
        omega
    · rw [if_neg hc]
      exact iff_of_false nofun fun h => hc h.1.1

/-- Digits alone are read as the number that they write. -/
theorem readDigits_zero_iff {digits : List Char} {n : UInt64} (hne : digits ≠ []) :
    readDigits 0 digits = .ok n ↔ Text.digits? digits = some n.toNat := by
  rw [readDigits_eq_ok_iff (by decide), Text.digits?, Text.digitsValue]
  by_cases hall : ∀ c ∈ digits, c.isDigit = true
  · have hnone : ¬(digits.isEmpty = true ∨ digits.any (!·.isDigit) = true) := by
      simpa [hne] using hall
    rw [if_neg hnone, Option.some.injEq, and_iff_right hall]
  · have hsome : digits.isEmpty = true ∨ digits.any (!·.isDigit) = true := by
      simpa [hne] using hall
    rw [if_pos hsome]
    exact iff_of_false (fun h => hall h.1) nofun

/-- A number is read exactly if the text writes it. -/
theorem readNumber_eq_ok_iff {text : String} {n : UInt64} :
    readNumber text = .ok n ↔ Text.natural? text.toList = some n.toNat := by
  rw [readNumber]
  split
  · rename_i htext
    rw [htext]
    exact iff_of_false nofun nofun
  · rename_i htext
    rw [htext]
    exact iff_of_false nofun nofun
  · rename_i digits hne htext
    rw [htext, readDigits_zero_iff hne]
    rfl
  · rename_i digits hempty hplus hsigned
    rw [readDigits_zero_iff hempty, Text.natural?]
    exact fun digits h => hsigned digits h

/-- A text is read if its number fits. -/
theorem numberVariable_eq_ok_iff {n : UInt64} :
    numberVariable (Text.trim raw) = .ok n ↔ WritesNumber raw n := by
  rw [numberVariable, mapError_eq_ok_iff, readNumber_eq_ok_iff, WritesNumber]

/-- Of two things, one is chosen by what is true of it alone. -/
theorem choice_eq_ok_iff {ε α : Type} {means : α → Prop} {P Q : Prop} [Decidable P] [Decidable Q]
    {first second a : α} {e : ε} (hfirst : P ↔ means first) (hsecond : Q ↔ means second)
    (hall : ∀ a, a = first ∨ a = second) (hne : means first → ¬means second) :
    (if P then .ok first else if Q then .ok second else .error e : Except ε α) = .ok a ↔
      means a := by
  by_cases hP : P
  · rw [if_pos hP, Except.ok.injEq]
    have hchosen := hfirst.mp hP
    rcases hall a with rfl | rfl
    · exact iff_of_true rfl hchosen
    · refine iff_of_false ?_ (hne hchosen)
      rintro rfl
      exact hne hchosen hchosen
  · rw [if_neg hP]
    have hother := mt hfirst.mpr hP
    by_cases hQ : Q
    · rw [if_pos hQ, Except.ok.injEq]
      have hchosen := hsecond.mp hQ
      rcases hall a with rfl | rfl
      · refine iff_of_false ?_ hother
        rintro rfl
        exact hother hchosen
      · exact iff_of_true rfl hchosen
    · rw [if_neg hQ]
      refine iff_of_false nofun fun ha => ?_
      rcases hall a with rfl | rfl
      · exact hother ha
      · exact hQ (hsecond.mpr ha)

theorem readFlag_eq_ok_iff {flag : Bool} :
    readFlag (Text.trim raw) = .ok flag ↔ NamesFlag raw flag := by
  refine choice_eq_ok_iff .rfl .rfl (fun flag => ?_) fun htrue hfalse => ?_
  · cases flag with
    | false => exact .inr rfl
    | true => exact .inl rfl
  · exact absurd (htrue.symm.trans hfalse) (by decide)

/-- A way to wait as a reason's reader. -/
def readKind (text : String) : Except Reason Lock.Kind :=
  (Lock.Kind.parse text).mapError .lockKind

theorem readKind_eq_ok_iff {kind : Lock.Kind} :
    readKind (Text.trim raw) = .ok kind ↔ NamesKind raw kind := by
  rw [readKind, mapError_eq_ok_iff, Lock.Kind.parse, Text.trim_trim]
  refine choice_eq_ok_iff .rfl .rfl (fun kind => ?_) fun hfirst hsecond => ?_
  · cases kind with
    | exclusive => exact .inl rfl
    | fair => exact .inr rfl
  · exact absurd (hfirst.symm.trans hsecond) (by decide)

theorem parseBinding_eq_ok_iff {binding : Binding} :
    Binding.parse (Text.trim raw) = .ok binding ↔ NamesBinding raw binding := by
  rw [Binding.parse, Text.trim_trim]
  refine choice_eq_ok_iff .rfl .rfl (fun binding => ?_) fun hfirst hsecond => ?_
  · cases binding with
    | principal => exact .inl rfl
    | device => exact .inr rfl
  · exact absurd (hfirst.symm.trans hsecond) (by decide)

/-- An algorithm as a reason's reader. -/
def readAlgorithm (text : String) : Except Reason Token.Algorithm :=
  (Token.Algorithm.parse text).mapError .algorithm

theorem readAlgorithm_eq_ok_iff {algorithm : Token.Algorithm} :
    readAlgorithm (Text.trim raw) = .ok algorithm ↔ NamesAlgorithm raw algorithm := by
  have hlong : spellings .aes256 = ["AES-256-GCM", "AES256GCM"] := by decide
  have hshort : spellings .aes128 = ["AES-128-GCM", "AES128GCM"] := by decide
  rw [readAlgorithm, mapError_eq_ok_iff, Token.Algorithm.parse, Text.trim_trim]
  refine choice_eq_ok_iff ?_ ?_ (fun algorithm => ?_) fun hfirst hsecond => ?_
  · rw [NamesAlgorithm, hlong, List.mem_pair]
  · rw [NamesAlgorithm, hshort, List.mem_pair]
  · cases algorithm with
    | aes256 => exact .inl rfl
    | aes128 => exact .inr rfl
  · have hdisjoint : ∀ spelling ∈ spellings .aes256, spelling ∉ spellings .aes128 := by decide
    exact hdisjoint _ hfirst hsecond

/-! ## The value of a variable -/

/-- A variable is missing or blank. -/
def LeftOut (vars : Variables) (name : String) : Prop :=
  ∀ raw, vars name = some raw → Text.Blank raw

/-- What a variable says: its default if it is left out, otherwise what its text means. -/
inductive Says {α : Type} (vars : Variables) (name : String) (means : String → α → Prop)
    (default : α) : α → Prop
  | leftOut (h : LeftOut vars name) : Says vars name means default default
  | filled {raw : String} {a : α} (hvar : vars name = some raw) (hfilled : ¬Text.Blank raw)
      (hmeans : means raw a) : Says vars name means default a

/-- A variable is missing, blank, or means something. -/
def Legible {α : Type} (vars : Variables) (name : String) (means : String → α → Prop) : Prop :=
  ∀ raw, vars name = some raw → Text.Blank raw ∨ ∃ a, means raw a

section Value

variable {α : Type} {means : String → α → Prop} {default a : α}

/-- A variable that is left out says its default. -/
theorem says_of_leftOut (h : LeftOut vars name) :
    Says vars name means default a ↔ a = default := by
  constructor
  · rintro (_ | ⟨hvar, hfilled, _⟩)
    · rfl
    · exact absurd (h _ hvar) hfilled
  · rintro rfl
    exact .leftOut h

/-- A variable that is not blank says what its text means. -/
theorem says_of_filled (hvar : vars name = some raw) (hfilled : ¬Text.Blank raw) :
    Says vars name means default a ↔ means raw a := by
  constructor
  · rintro (h | ⟨hvar', _, hmeans⟩)
    · exact absurd (h raw hvar) hfilled
    · rw [hvar, Option.some.injEq] at hvar'
      exact hvar' ▸ hmeans
  · exact .filled hvar hfilled

/-- A variable is left out or not. -/
theorem leftOut_or_filled (vars : Variables) (name : String) :
    LeftOut vars name ∨ ∃ raw, vars name = some raw ∧ ¬Text.Blank raw := by
  rw [LeftOut, ← not_exists_not]
  by_cases h : ∃ raw, ¬(vars name = some raw → Text.Blank raw)
  · obtain ⟨raw, hraw⟩ := h
    exact .inr ⟨raw, Classical.not_imp.mp hraw⟩
  · exact .inl h

/-- A variable says something exactly if it is legible. -/
theorem exists_says_iff :
    (∃ a, Says vars name means default a) ↔ Legible vars name means := by
  constructor
  · rintro ⟨a, h | ⟨hvar, hfilled, hmeans⟩⟩ raw hraw
    · exact .inl (h raw hraw)
    · rw [hvar, Option.some.injEq] at hraw
      exact .inr ⟨a, hraw ▸ hmeans⟩
  · intro h
    rcases leftOut_or_filled vars name with hout | ⟨raw, hvar, hfilled⟩
    · exact ⟨default, .leftOut hout⟩
    · obtain ⟨a, hmeans⟩ := (h raw hvar).resolve_left hfilled
      exact ⟨a, .filled hvar hfilled hmeans⟩

/-- The default stands for a text that is left out. -/
theorem textOr_of_leftOut (h : LeftOut vars name) (default : String) :
    textOr vars name default = default := by
  rw [textOr]
  split
  · rename_i raw hvar
    rw [if_pos (Text.isEmpty_trim_iff.mpr (h raw hvar))]
  · rfl

/-- The default stands for anything that is left out. -/
theorem variableOr_of_leftOut (h : LeftOut vars name) (read : String → Except Reason α)
    (default : α) : variableOr vars name read default = .ok default := by
  rw [variableOr]
  split
  · rename_i raw hvar
    rw [if_pos (Text.isEmpty_trim_iff.mpr (h raw hvar))]
  · rfl

/-- A text is taken as it stands. -/
theorem textOr_eq_iff {text default : String} :
    textOr vars name default = text ↔ Says vars name Eq default text := by
  rcases leftOut_or_filled vars name with hout | ⟨raw, hvar, hfilled⟩
  · rw [says_of_leftOut hout, textOr_of_leftOut hout, eq_comm]
  · rw [says_of_filled hvar hfilled, textOr, hvar]
    dsimp only
    rw [if_neg (mt Text.isEmpty_trim_iff.mp hfilled)]

/-- A variable is read as what it says. -/
theorem variableOr_eq_ok_iff {read : String → Except Reason α}
    (hread : ∀ {raw a}, read (Text.trim raw) = .ok a ↔ means raw a) :
    variableOr vars name read default = .ok a ↔ Says vars name means default a := by
  rcases leftOut_or_filled vars name with hout | ⟨raw, hvar, hfilled⟩
  · rw [says_of_leftOut hout, variableOr_of_leftOut hout, Except.ok.injEq, eq_comm]
  · rw [says_of_filled hvar hfilled, ← hread, variableOr, hvar]
    dsimp only
    rw [if_neg (mt Text.isEmpty_trim_iff.mp hfilled), readVariable, mapError_eq_ok_iff]

/-- A variable is read exactly if it is legible. -/
theorem exists_variableOr_iff {read : String → Except Reason α} (default : α)
    (hread : ∀ {raw a}, read (Text.trim raw) = .ok a ↔ means raw a) :
    (∃ a, variableOr vars name read default = .ok a) ↔ Legible vars name means := by
  rw [← exists_says_iff ]
  exact exists_congr fun a => variableOr_eq_ok_iff hread

end Value

end Turnstile.Settings
