import Cordyceps.Foundations.RegexRun
import Cordyceps.Foundations.Trimming
import Cordyceps.Transport.Auth

/-!
# The upgrade gate

Which requests become a session, said without patterns and buffers: the padded comparison is
equality of well-formed strings, the port and the brackets are cut off the Host header as a
text, and a bearer token is what stands behind the word and the white space after it.
-/

namespace Cordyceps.Transport

open Foundations

/-! ## The comparison -/

theorem padTo_eq_iff {first second : List UInt8} (h : first.length = second.length) (size : ℕ) :
    padTo size first = padTo size second ↔ first = second := by
  rw [padTo, padTo, h]
  exact List.append_left_inj _

/-- The comparison is equality of the bytes. -/
theorem constantTimeStringEqual_iff_utf8 (first second : JsString) :
    constantTimeStringEqual first second = true ↔
      JsString.utf8 first = JsString.utf8 second := by
  rw [constantTimeStringEqual]
  simp only [Bool.and_eq_true, beq_iff_eq]
  constructor
  · rintro ⟨hpadded, hlength⟩
    exact (padTo_eq_iff hlength _).mp hpadded
  · intro h
    rw [h]
    exact ⟨rfl, rfl⟩

theorem constantTimeStringEqual_iff {first second : JsString} (hfirst : first.WellFormed)
    (hsecond : second.WellFormed) : constantTimeStringEqual first second = true ↔ first = second := by
  rw [constantTimeStringEqual_iff_utf8, JsString.utf8_inj hfirst hsecond]

/-! ## The Host header -/

/-- A colon that only digits follow. -/
def opensPort (unit : CodeUnit) (rest : JsString) : Bool :=
  unit == 0x3A && (!rest.isEmpty && rest.all CodeUnit.isDigit)

/-- A text up to the colon that only digits follow. -/
def stripPort : JsString → JsString
  | [] => []
  | unit :: rest => if opensPort unit rest then [] else unit :: stripPort rest

theorem map_matchAt_port (passed ahead : JsString) :
    (portPattern.matchAt passed ahead).map (fun found ↦ found.before ++ [] ++ found.after) =
      match ahead with
      | [] => none
      | unit :: rest => if opensPort unit rest then some passed.reverse else none := by
  rw [Regex.map_matchAt, portPattern]
  simp only [Regex.run_cat_cons, Regex.run_cat_nil, Regex.digits]
  rw [Regex.run_literal, Regex.run_repeated1_lineEnd]
  cases ahead with
  | nil => rfl
  | cons unit rest =>
    by_cases hcolon : unit = 0x3A
    · subst hcolon
      change (if !rest.isEmpty && rest.all CodeUnit.isDigit then
          some (passed.reverse ++ [] ++ rest.drop rest.length) else none) =
        if opensPort 0x3A rest then some passed.reverse else none
      rw [List.drop_length, List.append_nil, List.append_nil]
      rfl
    · have hstarts : (js ":").isPrefixOf (unit :: rest) = false := by
        rw [Bool.eq_false_iff]
        intro hcontra
        exact hcolon (List.cons_prefix_cons.mp (List.isPrefixOf_iff_prefix.mp hcontra)).1.symm
      simp [hstarts, hcolon, opensPort]

theorem replaceFirst_port (text : JsString) : portPattern.replaceFirst [] text = stripPort text := by
  have hfrom : ∀ passed, ((portPattern.execFrom passed text).map fun found ↦
      found.before ++ [] ++ found.after).getD (passed.reverse ++ text) =
        passed.reverse ++ stripPort text := by
    induction text with
    | nil =>
      intro passed
      have hmatch := map_matchAt_port passed []
      rw [Option.map_eq_none_iff] at hmatch
      rw [Regex.execFrom, hmatch]
      rfl
    | cons unit rest ih =>
      intro passed
      have hmatch := map_matchAt_port passed (unit :: rest)
      rw [Regex.execFrom, stripPort]
      by_cases hport : opensPort unit rest
      · simp only [hport, if_true] at hmatch
        obtain ⟨found, hfound, hbefore⟩ := Option.map_eq_some_iff.mp hmatch
        simpa [hport, hfound] using hbefore
      · simp only [hport, Bool.false_eq_true, if_false, Option.map_eq_none_iff] at hmatch
        have hrest := ih (unit :: passed)
        simpa [hport, hmatch] using hrest
  have hstart := hfrom []
  unfold Regex.replaceFirst Regex.exec
  cases hfound : portPattern.execFrom [] text with
  | none =>
    rw [hfound] at hstart
    exact hstart
  | some found =>
    rw [hfound] at hstart
    exact hstart

theorem run_bracket (done : Cursor → Option JsString) (cursor : Cursor) :
    Regex.run (Regex.literal "]") (Regex.run (.lineEnd false) done) cursor =
      if cursor.ahead = js "]" then done (cursor.skip 1) else none := by
  have hliteral : Regex.literal "]" = .single (· == 0x5D) := rfl
  have hjs : js "]" = [0x5D] := rfl
  rw [hliteral, hjs, Regex.run_single, Regex.run_lineEnd]
  obtain ⟨passed, ahead, captures⟩ := cursor
  cases ahead with
  | nil => rfl
  | cons unit rest => by_cases hunit : unit = 0x5D <;> simp [hunit, Cursor.skip]

/-- What the pattern for brackets makes of a match is the text between them. -/
theorem exec_bracket_sound {text inner : JsString}
    (h : (bracketPattern.exec text).map
      (fun found ↦ found.before ++ found.text 1 ++ found.after) = some inner) :
    text = js "[" ++ inner ++ js "]" := by
  rw [bracketPattern, Regex.exec_anchored, Regex.map_matchAt] at h
  simp only [Regex.run_cat_cons, Regex.run_cat_nil] at h
  rw [Regex.run_lineStart, if_pos rfl, Regex.run_literal] at h
  split at h
  case isFalse hother => exact absurd h (by simp)
  case isTrue hopen =>
    obtain ⟨behind, rfl⟩ := List.isPrefixOf_iff_prefix.mp hopen
    rw [Regex.run_group, Regex.repeated1, Regex.run_seq, Regex.run_single] at h
    split at h
    case isFalse hempty => exact absurd h (by simp)
    case isTrue hhead =>
      cases behind with
      | nil => exact absurd hhead (by decide)
      | cons unit rest =>
        obtain ⟨count, -, hnext⟩ := Regex.run_repeated_eq_some h
        rw [run_bracket] at hnext
        split at hnext
        case isFalse hmore => exact absurd hnext (by simp)
        case isTrue hend =>
          have hjoin := List.take_append_drop count rest
          change rest.drop count = js "]" at hend
          change some ([] ++ (((rest.take count).reverse ++ [unit, 0x5B]).take
            (((rest.take count).reverse ++ [unit, 0x5B]).length - 1)).reverse ++
              (rest.drop count).drop 1) = some inner at hnext
          rw [← List.dropLast_eq_take, hend] at hnext
          have hempty : (js "]").tail = [] := rfl
          have hinner : unit :: rest.take count = inner := by simpa [hempty] using hnext
          rw [hend] at hjoin
          rw [← hinner, List.append_assoc, List.cons_append, hjoin]

theorem exec_bracket_complete {inner : JsString} (hne : inner ≠ [])
    (hdot : inner.all CodeUnit.isDot) :
    (bracketPattern.exec (js "[" ++ inner ++ js "]")).isSome := by
  obtain ⟨unit, rest, rfl⟩ := List.exists_cons_of_ne_nil hne
  rw [List.all_cons, Bool.and_eq_true] at hdot
  rw [bracketPattern, Regex.exec_anchored, ← Option.isSome_map (f := fun _ ↦ ([] : JsString)),
    Regex.map_matchAt]
  simp only [Regex.run_cat_cons, Regex.run_cat_nil]
  have hopen : (js "[").isPrefixOf (js "[" ++ (unit :: rest) ++ js "]") = true := rfl
  rw [Regex.run_lineStart, if_pos rfl, Regex.run_literal, if_pos hopen, Regex.run_group,
    Regex.repeated1, Regex.run_seq, Regex.run_single, if_pos (by exact hdot.1)]
  refine Regex.run_repeated_isSome (show ((rest ++ js "]").take rest.length).all CodeUnit.isDot from ?_) ?_
  · rw [List.take_left]
    exact hdot.2
  · rw [run_bracket, if_pos]
    · rfl
    · change (rest ++ js "]").drop rest.length = js "]"
      exact List.drop_left

/-- The Host header names a loopback address, once the port and brackets are cut off. -/
def LoopbackHost (host : Option JsString) : Prop :=
  ∃ name ∈ [js "127.0.0.1", js "localhost", js "::1"],
    stripPort (JsString.toLowerCase (host.getD [])) = name ∨
      stripPort (JsString.toLowerCase (host.getD [])) = js "[" ++ name ++ js "]"

/-- Cutting off the brackets gives a name that has none. -/
theorem replaceFirstBy_bracket_iff {text name : JsString} (hne : name ≠ [])
    (hdot : name.all CodeUnit.isDot) (hplain : name.head? ≠ some 0x5B) :
    bracketPattern.replaceFirstBy (Match.text 1) text = name ↔
      text = name ∨ text = js "[" ++ name ++ js "]" := by
  rw [Regex.replaceFirstBy]
  cases hexec : bracketPattern.exec text with
  | none =>
    refine ⟨Or.inl, ?_⟩
    rintro (htext | rfl)
    · exact htext
    · have hsome := exec_bracket_complete hne hdot
      rw [hexec] at hsome
      exact absurd hsome (by decide)
  | some found =>
    have htext := exec_bracket_sound (congrArg (Option.map _) hexec)
    constructor
    · rintro rfl
      exact Or.inr htext
    · rintro (rfl | hbracketed)
      · rw [htext] at hplain
        exact absurd rfl hplain
      · rw [hbracketed] at htext
        exact (List.append_cancel_left (List.append_cancel_right htext)).symm

theorem isLoopbackName_iff (hostname : JsString) :
    isLoopbackName hostname = true ↔
      hostname ∈ [js "127.0.0.1", js "localhost", js "::1"] := by
  simp [isLoopbackName, or_assoc]

theorem loopbackHost_iff (host : Option JsString) :
    isLoopbackName (hostnameOf host) = true ↔ LoopbackHost host := by
  have hplain : ∀ name ∈ [js "127.0.0.1", js "localhost", js "::1"],
      name ≠ [] ∧ name.all CodeUnit.isDot ∧ name.head? ≠ some 0x5B := by decide
  rw [isLoopbackName_iff, hostnameOf, replaceFirst_port, LoopbackHost]
  constructor
  · intro hmem
    obtain ⟨hne, hdot, hhead⟩ := hplain _ hmem
    exact ⟨_, hmem, (replaceFirstBy_bracket_iff hne hdot hhead).mp rfl⟩
  · rintro ⟨name, hmem, htext⟩
    obtain ⟨hne, hdot, hhead⟩ := hplain name hmem
    rw [(replaceFirstBy_bracket_iff hne hdot hhead).mpr htext]
    exact hmem

/-! ## The Authorization header -/

/-- The header is the word, white space, and the token without line breaks. -/
def Presents (expected authHeader : JsString) : Prop :=
  ∃ word ∈ [js "Bearer", js "bearer"], ∃ space value,
    authHeader = word ++ space ++ value ∧ space ≠ [] ∧ space.all JsString.isSpace ∧
      value.all CodeUnit.isDot ∧ JsString.trim value = expected

theorem bearer_iff (letter : CodeUnit) :
    CodeUnit.among "Bb" letter = true ↔ letter :: js "earer" ∈ [js "Bearer", js "bearer"] := by
  have hletters : js "Bb" = [0x42, 0x62] := rfl
  have hupper : js "Bearer" = 0x42 :: js "earer" := rfl
  have hlower : js "bearer" = 0x62 :: js "earer" := rfl
  simp [CodeUnit.among, hletters, hupper, hlower]

theorem bearer_sound {authHeader value : JsString}
    (h : (bearerPattern.exec authHeader).map (Match.text 1) = some value) :
    ∃ word ∈ [js "Bearer", js "bearer"], ∃ space,
      authHeader = word ++ space ++ value ∧ space ≠ [] ∧ space.all JsString.isSpace ∧
        value.all CodeUnit.isDot := by
  rw [bearerPattern, Regex.exec_anchored, Regex.map_matchAt] at h
  simp only [Regex.run_cat_cons, Regex.run_cat_nil, Regex.spaces] at h
  rw [Regex.run_lineStart, if_pos rfl, Regex.run_single] at h
  split at h
  case isFalse hnone => exact absurd h (by simp)
  case isTrue hfirst =>
    cases authHeader with
    | nil => exact absurd hfirst (by decide)
    | cons letter behind =>
      rw [Regex.run_literal] at h
      split at h
      case isFalse hnone => exact absurd h (by simp)
      case isTrue hword =>
        obtain ⟨text, htext⟩ := List.isPrefixOf_iff_prefix.mp hword
        change js "earer" ++ text = behind at htext
        subst htext
        rw [Regex.repeated1, Regex.run_seq, Regex.run_single] at h
        split at h
        case isFalse hnone => exact absurd h (by simp)
        case isTrue hspace =>
          cases text with
          | nil => exact absurd (show false = true from hspace) (by decide)
          | cons unit rest =>
            obtain ⟨count, hspaces, hnext⟩ := Regex.run_repeated_eq_some h
            change (rest.take count).all JsString.isSpace at hspaces
            change JsString.isSpace unit at hspace
            rw [Regex.run_group_lineEnd] at hnext
            split at hnext
            case isFalse hnone => exact absurd hnext (by simp)
            case isTrue hvalue =>
              change (!(rest.drop count).isEmpty && (rest.drop count).all CodeUnit.isDot) at hvalue
              have hcaptured : rest.drop count = value := Option.some.inj hnext
              rw [hcaptured, Bool.and_eq_true] at hvalue
              refine ⟨letter :: js "earer", (bearer_iff letter).mp hfirst,
                unit :: rest.take count, ?_, List.cons_ne_nil _ _, ?_, hvalue.2⟩
              · simp [← hcaptured]
              · rw [List.all_cons, hspace, hspaces]
                rfl

theorem bearer_complete {word space value : JsString} (hword : word ∈ [js "Bearer", js "bearer"])
    (hspace : space ≠ []) (hspaces : space.all JsString.isSpace) (hvalue : value ≠ [])
    (hdot : value.all CodeUnit.isDot) :
    (bearerPattern.exec (word ++ space ++ value)).isSome := by
  obtain ⟨letter, hletter, rfl⟩ : ∃ letter, CodeUnit.among "Bb" letter ∧
      word = letter :: js "earer" := by
    rcases List.mem_pair.mp hword with rfl | rfl
    · exact ⟨0x42, by decide, rfl⟩
    · exact ⟨0x62, by decide, rfl⟩
  obtain ⟨unit, rest, rfl⟩ := List.exists_cons_of_ne_nil hspace
  rw [List.all_cons, Bool.and_eq_true] at hspaces
  rw [bearerPattern, Regex.exec_anchored, ← Option.isSome_map (f := fun _ ↦ ([] : JsString)),
    Regex.map_matchAt]
  simp only [Regex.run_cat_cons, Regex.run_cat_nil, Regex.spaces]
  have hword : (js "earer").isPrefixOf (js "earer" ++ unit :: rest ++ value) = true := rfl
  rw [Regex.run_lineStart, if_pos rfl, Regex.run_single, if_pos (by exact hletter),
    Regex.run_literal, if_pos (by exact hword), Regex.repeated1, Regex.run_seq, Regex.run_single,
    if_pos (by exact hspaces.1)]
  refine Regex.run_repeated_isSome
    (show ((rest ++ value).take rest.length).all JsString.isSpace from ?_) ?_
  · rw [List.take_left]
    exact hspaces.2
  · rw [Regex.run_group_lineEnd, if_pos]
    · rfl
    · change (!((rest ++ value).drop rest.length).isEmpty &&
        ((rest ++ value).drop rest.length).all CodeUnit.isDot) = true
      rw [List.drop_left, hdot]
      simpa using hvalue

/-- However the pattern divides the header, the trimmed token is the same. -/
theorem trim_unique {word space value word' space' value' : JsString}
    (hword : word ∈ [js "Bearer", js "bearer"]) (hword' : word' ∈ [js "Bearer", js "bearer"])
    (hspace : space.all JsString.isSpace) (hspace' : space'.all JsString.isSpace)
    (h : word ++ space ++ value = word' ++ space' ++ value') :
    JsString.trim value = JsString.trim value' := by
  have hlength : ∀ word ∈ [js "Bearer", js "bearer"], word.length = 6 := by decide
  rw [List.append_assoc, List.append_assoc] at h
  have hbehind := (List.append_inj h ((hlength word hword).trans (hlength word' hword').symm)).2
  rw [← JsString.trim_blank_append (List.all_eq_true.mp hspace), hbehind,
    JsString.trim_blank_append (List.all_eq_true.mp hspace')]

theorem wellFormed_value {word space value : JsString} (hword : word ∈ [js "Bearer", js "bearer"])
    (hspace : space.all JsString.isSpace) (h : (word ++ space ++ value).WellFormed) :
    value.WellFormed := by
  have hletters : ([js "Bearer", js "bearer"].all fun word ↦ word.all fun unit ↦
      decide (JsString.Ordinary unit)) = true := by decide
  refine JsString.WellFormed.of_append (fun unit hunit ↦ ?_) h
  rcases List.mem_append.mp hunit with hletter | hwhite
  · exact of_decide_eq_true (List.all_eq_true.mp (List.all_eq_true.mp hletters word hword) unit hletter)
  · exact JsString.ordinary_of_isSpace (List.all_eq_true.mp hspace unit hwhite)

theorem headerTokenMatches_iff {authorization : Option JsString} {expected : JsString}
    (hne : expected ≠ []) (hexpected : expected.WellFormed)
    (hheader : ∀ authHeader ∈ authorization, authHeader.WellFormed) :
    headerTokenMatches authorization expected = true ↔
      ∃ authHeader ∈ authorization, Presents expected authHeader := by
  cases authorization with
  | none => simp [headerTokenMatches]
  | some authHeader =>
    have hwell := hheader authHeader rfl
    simp only [headerTokenMatches, Option.mem_some_iff, exists_eq_left']
    constructor
    · intro hmatches
      cases hexec : bearerPattern.exec authHeader with
      | none => simp [hexec] at hmatches
      | some found =>
        obtain ⟨word, hword, space, rfl, hnonempty, hspace, hvalue⟩ :=
          bearer_sound (congrArg (Option.map _) hexec)
        have htrimmed := (wellFormed_value hword hspace hwell).trim
        rw [hexec] at hmatches
        exact ⟨word, hword, space, _, rfl, hnonempty, hspace, hvalue,
          (constantTimeStringEqual_iff htrimmed hexpected).mp hmatches⟩
    · rintro ⟨word, hword, space, value, rfl, hnonempty, hspace, hvalue, htrim⟩
      have hvalueNe : value ≠ [] := by
        rintro rfl
        exact hne htrim.symm
      obtain ⟨found, hfound⟩ := Option.isSome_iff_exists.mp
        (bearer_complete hword hnonempty hspace hvalueNe hvalue)
      obtain ⟨word', hword', space', hsplit, -, hspace', -⟩ :=
        bearer_sound (congrArg (Option.map _) hfound)
      have htext : JsString.trim (found.text 1) = expected := by
        rw [← htrim]
        exact (trim_unique hword hword' hspace hspace' hsplit).symm
      rw [hfound]
      refine (constantTimeStringEqual_iff ?_ hexpected).mpr htext
      rw [htext]
      exact hexpected

/-! ## The gate -/

/-- What the handler relies on: a hostname with a colon in it is an IPv6 literal in brackets, and
the parameters are well-formed strings. -/
structure UrlClass.Standard (url : UrlClass) : Prop where
  brackets : ∀ input base, ∀ address ∈ url input base,
    (0x3A : CodeUnit) ∈ address.hostname → address.hostname.head? = some 0x5B
  wellFormed : ∀ input base, ∀ address ∈ url input base,
    ∀ entry ∈ address.searchParams, JsString.WellFormed entry.2

theorem queryTokenMatches_iff {url : UrlClass} (hurl : url.Standard) {expected : JsString}
    (hne : expected ≠ []) (hexpected : expected.WellFormed) (requestUrl : Option JsString) :
    queryTokenMatches url requestUrl expected = true ↔
      ∃ address ∈ url (requestUrl.getD (js "/")) (some baseUrl),
        address.param (js "token") = some expected := by
  rw [queryTokenMatches]
  cases haddress : url (requestUrl.getD (js "/")) (some baseUrl) with
  | none => simp
  | some address =>
    simp only [Option.mem_some_iff, exists_eq_left']
    cases hparam : address.param (js "token") with
    | none => simp
    | some queryToken =>
      obtain ⟨entry, hentry, hvalue⟩ := Option.map_eq_some_iff.mp hparam
      have hwell := hurl.wellFormed _ _ address haddress entry (List.mem_of_find?_eq_some hentry)
      rw [hvalue] at hwell
      rw [Bool.and_eq_true, constantTimeStringEqual_iff hwell hexpected, Option.some.injEq]
      refine ⟨And.right, fun h ↦ ⟨?_, h⟩⟩
      rw [h]
      simpa using hne

/-- The Origin header is absent, or `null`, or a URL of a loopback name. -/
def LoopbackOrigin (url : UrlClass) (origin : Option JsString) : Prop :=
  origin = none ∨ origin = some (js "null") ∨
    ∃ text ∈ origin, ∃ address ∈ url text none,
      JsString.toLowerCase address.hostname ∈ [js "127.0.0.1", js "localhost", js "[::1]"]

/-- The Origin header is a URL of the IPv6 loopback address. -/
def Ipv6Origin (url : UrlClass) (origin : Option JsString) : Prop :=
  ∃ text ∈ origin, ∃ address ∈ url text none,
    JsString.toLowerCase address.hostname = js "[::1]"

/-- A request is let in by its path, its Host and Origin, and its token. -/
def LetIn (url : UrlClass) (expected : JsString) (request : UpgradeRequest) : Prop :=
  ∃ address ∈ url (request.url.getD (js "/")) (some baseUrl),
    address.pathname = js "/rpc" ∧ LoopbackHost request.host ∧
      LoopbackOrigin url request.origin ∧
      ((∃ authHeader ∈ request.authorization, Presents expected authHeader) ∨
        address.param (js "token") = some expected)

/-- No hostname is the IPv6 loopback address without brackets. -/
theorem UrlClass.Standard.ne_bare {url : UrlClass} (hurl : url.Standard) {input : JsString}
    {base : Option JsString} {address : Address} (h : address ∈ url input base) :
    JsString.toLowerCase address.hostname ≠ js "::1" := by
  intro hbare
  have hbracket := hurl.brackets input base address h
  have hjs : js "::1" = [0x3A, 0x3A, 0x31] := rfl
  rw [hjs] at hbare
  cases hname : address.hostname with
  | nil => simp [hname, JsString.toLowerCase] at hbare
  | cons unit rest =>
    rw [hname, JsString.toLowerCase, List.map_cons, List.cons.injEq] at hbare
    have hunit : unit = 0x3A := by
      have hfirst := hbare.1
      split at hfirst
      case isTrue hletter =>
        simp only [Bool.and_eq_true, decide_eq_true_eq, UInt16.le_iff_toNat_le,
          ← UInt16.toNat_inj, UInt16.toNat_add, UInt16.reduceToNat] at hletter hfirst
        omega
      case isFalse hother => exact hfirst
    subst hunit
    rw [hname] at hbracket
    exact absurd (hbracket List.mem_cons_self) (by simp)

theorem isLoopbackUpgrade_iff {url : UrlClass} (hurl : url.Standard) {request : UpgradeRequest}
    (horigin : ¬Ipv6Origin url request.origin) :
    isLoopbackUpgrade url request = true ↔
      LoopbackHost request.host ∧ LoopbackOrigin url request.origin := by
  rw [isLoopbackUpgrade, Bool.and_eq_true, loopbackHost_iff]
  refine and_congr_right fun _ ↦ ?_
  cases hheader : request.origin with
  | none => simp [LoopbackOrigin]
  | some text =>
    by_cases hnull : text = js "null"
    · simp [LoopbackOrigin, hnull]
    · cases haddress : url text none with
      | none => simp [LoopbackOrigin, hnull, haddress]
      | some address =>
        have hbare := hurl.ne_bare haddress
        have hipv6 : JsString.toLowerCase address.hostname ≠ js "[::1]" := fun hname ↦
          horigin ⟨text, hheader, address, haddress, hname⟩
        simp [LoopbackOrigin, hnull, haddress, isLoopbackName, hbare, hipv6]

/-- A request becomes a session if and only if it is let in. Nothing is said about an Origin that
is a URL of the IPv6 loopback address. -/
theorem onUpgrade_opened_iff {url : UrlClass} (hurl : url.Standard) {expected : JsString}
    (hne : expected ≠ []) (hexpected : expected.WellFormed) {request : UpgradeRequest}
    (hheader : ∀ authHeader ∈ request.authorization, authHeader.WellFormed)
    (horigin : ¬Ipv6Origin url request.origin) :
    onUpgrade url expected request = .opened ↔ LetIn url expected request := by
  have htoken : verifyUpgradeToken url request expected = true ↔
      (∃ authHeader ∈ request.authorization, Presents expected authHeader) ∨
        ∃ address ∈ url (request.url.getD (js "/")) (some baseUrl),
          address.param (js "token") = some expected := by
    rw [verifyUpgradeToken, Bool.and_eq_true, Bool.or_eq_true,
      headerTokenMatches_iff hne hexpected hheader, queryTokenMatches_iff hurl hne hexpected]
    simp [hne]
  have hloopback := isLoopbackUpgrade_iff hurl horigin
  rw [onUpgrade, LetIn]
  cases haddress : url (request.url.getD (js "/")) (some baseUrl) with
  | none => simp
  | some address =>
    simp only [haddress, Option.mem_some_iff, exists_eq_left'] at htoken ⊢
    rw [← htoken, ← and_assoc, ← and_assoc, and_assoc (a := address.pathname = _), ← hloopback]
    by_cases hpath : address.pathname = js "/rpc"
    · cases isLoopbackUpgrade url request <;> cases verifyUpgradeToken url request expected <;>
        simp [hpath]
    · simp [hpath]

/-- The URL class, as far as the request URL `/rpc` and the origin `null` go. -/
def rpcUrls : UrlClass := fun input base ↦
  if input = js "/rpc" ∧ base = some baseUrl then some ⟨js "/rpc", js "127.0.0.1", []⟩ else none

theorem rpcUrls_standard : rpcUrls.Standard := by
  have haddress : ∀ input base, ∀ address ∈ rpcUrls input base,
      address = ⟨js "/rpc", js "127.0.0.1", []⟩ := by
    intro input base address h
    rw [rpcUrls] at h
    split at h
    case isTrue hrpc => exact (Option.mem_some_iff.mp h).symm
    case isFalse hother => exact absurd h (by simp)
  constructor
  · intro input base address h
    rw [haddress input base address h]
    decide
  · intro input base address h
    rw [haddress input base address h]
    simp

theorem onUpgrade_opened_bearer :
    onUpgrade rpcUrls (js "key")
        ⟨some (js "/rpc"), some (js "localhost:3200"), none, some (js "Bearer key")⟩ = .opened ↔
      LetIn rpcUrls (js "key")
        ⟨some (js "/rpc"), some (js "localhost:3200"), none, some (js "Bearer key")⟩ :=
  onUpgrade_opened_iff rpcUrls_standard (by decide) ⟨"key", rfl⟩
    (by simpa using ⟨"Bearer key", rfl⟩) (by simp [Ipv6Origin])

/-- The origin `null` is no URL and let in; a token with a line break behind it is not. -/
theorem null_origin_opens :
    rpcUrls (js "null") none = none ∧
      onUpgrade rpcUrls (js "key") ⟨some (js "/rpc"), some (js "localhost"), some (js "null"),
        some (js "Bearer key")⟩ = .opened ∧
      JsString.trim (js "key\n") = js "key" ∧
      onUpgrade rpcUrls (js "key") ⟨some (js "/rpc"), some (js "localhost"), none,
        some (js "Bearer key\n")⟩ = .unauthorized := by
  decide +kernel

end Cordyceps.Transport
