import ApiDoc.Proofs.Json.Layout

/-!
Control bytes stand between the literals.

The bytes of a JSON text lead in and out of its string literals. What is written within a literal holds no
byte below 0x20 and leads out of it at its closing quote alone; what is written around literals holds
no such byte but line feeds.
-/

namespace ApiDoc

namespace Json

/-- Where a byte of a JSON text stands: outside of its string literals, inside of one, or behind a backslash
in one. -/
inductive Region
  | outside
  | inside
  | escaped
  deriving DecidableEq, Repr

def Region.step : Region → UInt8 → Region
  | outside, byte => if byte = 0x22 then inside else outside
  | inside, byte => if byte = 0x22 then outside else if byte = 0x5C then escaped else inside
  | escaped, _ => inside

def Region.after (region : Region) (bytes : Bytes) : Region :=
  bytes.foldl step region

/-- Whether bytes lead from one region to another, and none below 0x20 is met on the way but line feeds
outside of literals. -/
inductive Leads : Region → Bytes → Region → Prop
  | nil (region : Region) : Leads region [] region
  | cons {region finish : Region} {byte : UInt8} {bytes : Bytes} :
      (byte.toNat < 0x20 → byte = 0x0A ∧ region = .outside) →
        Leads (region.step byte) bytes finish → Leads region (byte :: bytes) finish

theorem Leads.append {start middle finish : Region} {bytes more : Bytes}
    (first : Leads start bytes middle) (second : Leads middle more finish) :
    Leads start (bytes ++ more) finish := by
  induction first with
  | nil => exact second
  | cons allowed _ ih => exact .cons allowed (ih second)

theorem Leads.control {start finish : Region} {before behind : Bytes} {byte : UInt8}
    (leads : Leads start (before ++ byte :: behind) finish) (low : byte.toNat < 0x20) :
    byte = 0x0A ∧ start.after before = .outside := by
  induction before generalizing start with
  | nil =>
      cases leads with
      | cons allowed _ => exact allowed low
  | cons first before ih =>
      cases leads with
      | cons _ rest => exact ih rest

def Plain (char : Char) : Prop :=
  0x20 ≤ char.toNat ∧ char ≠ '"' ∧ char ≠ '\\'

instance (char : Char) : Decidable (Plain char) :=
  inferInstanceAs (Decidable (0x20 ≤ char.toNat ∧ char ≠ '"' ∧ char ≠ '\\'))

theorem Plain.step_of_mem_encodeChar {char : Char} (plain : Plain char) {byte : UInt8}
    (member : byte ∈ Utf8.encodeChar char) {region : Region} (ready : region ≠ .escaped) :
    ¬ byte.toNat < 0x20 ∧ region.step byte = region := by
  obtain ⟨visible, notQuote, notBackslash⟩ := plain
  constructor
  · rcases Utf8.toNat_of_mem_encodeChar member with same | high
    · omega
    · omega
  have quote_ne : byte ≠ 0x22 := by
    rintro rfl
    have same : char = '"' := Utf8.eq_of_ascii_mem_encodeChar (by decide) member
    exact notQuote same
  have backslash_ne : byte ≠ 0x5C := by
    rintro rfl
    have same : char = '\\' := Utf8.eq_of_ascii_mem_encodeChar (by decide) member
    exact notBackslash same
  cases region with
  | outside => exact if_neg quote_ne
  | inside => exact (if_neg quote_ne).trans (if_neg backslash_ne)
  | escaped => contradiction

theorem leads_of_stays {region : Region} {bytes : Bytes}
    (stays : ∀ byte ∈ bytes, ¬ byte.toNat < 0x20 ∧ region.step byte = region) :
    Leads region bytes region := by
  induction bytes with
  | nil => exact .nil region
  | cons byte bytes ih =>
      obtain ⟨first, others⟩ := List.forall_mem_cons.mp stays
      refine .cons (fun low => absurd low first.1) ?_
      rw [first.2]
      exact ih others

theorem leads_of_plain {region : Region} (ready : region ≠ .escaped) {text : Text}
    (plain : ∀ char ∈ text, Plain char) : Leads region (Utf8.encode text) region := by
  apply leads_of_stays
  intro byte member
  obtain ⟨char, inText, inChar⟩ := List.mem_flatMap.mp member
  exact (plain char inText).step_of_mem_encodeChar inChar ready

theorem hexDigit_plain {digit : Nat} (bound : digit < 16) : Plain (hexDigit digit) := by
  have all : ∀ digit < 16, Plain (hexDigit digit) := by decide
  exact all digit bound

theorem leads_backslash {letter : Char} (visible : 0x20 ≤ letter.toNat) (ascii : letter.toNat < 0x80) :
    Leads .inside (Utf8.encode ['\\', letter]) .inside := by
  have bytes : Utf8.encode ['\\', letter] = [0x5C, UInt8.ofNat letter.toNat] := by
    have single : Utf8.encodeChar letter = [UInt8.ofNat letter.toNat] := if_pos ascii
    rw [Utf8.encode, List.flatMap_cons, List.flatMap_singleton, single]
    rfl
  rw [bytes]
  refine .cons (fun low => absurd low (by decide)) (.cons ?_ (.nil _))
  intro low
  rw [Utf8.toNat_ofNat_of_lt (by omega)] at low
  omega

theorem leads_escape (char : Char) : Leads .inside (Utf8.encode (escape char)) .inside := by
  rcases escape_cases char with ⟨letter, listed, _, written⟩ | ⟨control, written⟩ |
    ⟨notQuote, notBackslash, visible, written⟩
  · have letters : ∀ letter ∈ "\"\\bfnrt".toList, 0x20 ≤ letter.toNat ∧ letter.toNat < 0x80 := by
      decide
    obtain ⟨visible, ascii⟩ := letters letter listed
    rw [written]
    exact leads_backslash visible ascii
  · have digits : ∀ digit ∈ ['0', '0', hexDigit (char.toNat / 16), hexDigit (char.toNat % 16)],
        Plain digit := by
      simp only [List.forall_mem_cons]
      exact ⟨by decide, by decide, hexDigit_plain (by omega), hexDigit_plain (by omega),
        List.forall_mem_nil _⟩
    have letter : Leads .inside (Utf8.encode ['\\', 'u']) .inside :=
      leads_backslash (by decide) (by decide)
    have unit := letter.append (leads_of_plain (by decide) digits)
    rw [← Utf8.encode_append] at unit
    rw [written]
    exact unit
  · have plain : Plain char := ⟨by omega, notQuote, notBackslash⟩
    rw [written]
    exact leads_of_plain (by decide) (List.forall_mem_singleton.mpr plain)

theorem leads_flatMap_escape (content : Text) :
    Leads .inside (Utf8.encode (content.flatMap escape)) .inside := by
  induction content with
  | nil => exact .nil _
  | cons char content ih =>
      rw [List.flatMap_cons, Utf8.encode_append]
      exact (leads_escape char).append ih

def Quiet (text : Text) : Prop :=
  Leads .outside (Utf8.encode text) .outside

theorem Quiet.append {first second : Text} (first_quiet : Quiet first) (second_quiet : Quiet second) :
    Quiet (first ++ second) := by
  rw [Quiet, Utf8.encode_append]
  exact Leads.append first_quiet second_quiet

theorem quiet_of_plain {text : Text} (plain : ∀ char ∈ text, Plain char) : Quiet text :=
  leads_of_plain (by decide) plain

theorem quiet_quote (content : Text) : Quiet (quote content) := by
  have opened : Leads .outside (Utf8.encode ['"']) .inside :=
    .cons (fun low => absurd low (by decide)) (.nil _)
  have closed : Leads .inside (Utf8.encode ['"']) .outside :=
    .cons (fun low => absurd low (by decide)) (.nil _)
  have whole := opened.append ((leads_flatMap_escape content).append closed)
  rw [← Utf8.encode_append, ← Utf8.encode_append] at whole
  exact whole

theorem quiet_lineFeed : Quiet ['\n'] :=
  .cons (fun _ => ⟨rfl, rfl⟩) (.nil _)

theorem laid_quiet : Laid Quiet where
  append := Quiet.append
  single char member := by
    by_cases lineFeed : char = '\n'
    · rw [lineFeed]
      exact quiet_lineFeed
    · have others : ∀ char ∈ layout, char ≠ '\n' → Plain char := by decide
      exact quiet_of_plain (List.forall_mem_singleton.mpr (others char member lineFeed))

end Json

end ApiDoc
