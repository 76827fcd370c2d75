import Playground.BracedKeys
import Playground.PlaygroundTemplates

/-! # Placeholders

The seven replacements of `substitute_placeholders`, and the scan that warns of what they left. -/
namespace PlaygroundPlaceholders

open BracedKeys
open PlaygroundCleanup
open PlaygroundManagerRuns (WellFormed)
open PlaygroundNames
open PlaygroundOperations
open PlaygroundSessions
open PlaygroundTemplates
open RustText
open String (utf8Len utf8EncodeChar)

section Values

def nameChar (c : Char) : Bool := c.isAlphanum || c == '_' || c == '-'

theorem nameChar_range {c : Char} (h : nameChar c = true) :
    c.toNat ≤ 127 ∧ c ≠ '\x7b' ∧ c ≠ '\x7d' := by
  rw [nameChar, Bool.or_eq_true] at h
  rcases h with h | h
  · have hidentifier : identifierChar c = true := h
    have hrange := identifierChar_cases hidentifier
    refine ⟨by omega, ?_, ?_⟩
    · rintro rfl
      exact absurd hrange (by decide)
    · rintro rfl
      exact absurd hrange (by decide)
  · rw [beq_iff_eq.mp h]
    decide

theorem nameChars_braceFree {text : List Char} (h : ∀ c ∈ text, nameChar c = true) :
    BraceFree text :=
  ⟨fun hmem => (nameChar_range (h _ hmem)).2.1 rfl, fun hmem => (nameChar_range (h _ hmem)).2.2 rfl⟩

theorem identifier_braceFree {name : String} (h : isSafeIdentifier name = true) :
    BraceFree name.toList := by
  refine nameChars_braceFree fun c hc => ?_
  have hidentifier := (isSafeIdentifier_chars h).2 c hc
  rw [identifierChar] at hidentifier
  rw [nameChar, hidentifier, Bool.true_or]

theorem uuidText_braceFree (id : Uuid) : BraceFree (uuidText id).toList := by
  have hgroup : ∀ i n, ∀ c ∈ (List.range n).flatMap fun j => lowerHex (byteAt id (i + j)),
      nameChar c = true := by
    intro i n c hc
    obtain ⟨j, -, hc⟩ := List.mem_flatMap.mp hc
    have hhex : ∀ n, nameChar (hexDigit n) = true := by
      intro n
      have hidentifier := hexChar_identifier (hexDigit_mem n)
      rw [identifierChar] at hidentifier
      rw [nameChar, hidentifier, Bool.true_or]
    rcases List.mem_pair.mp hc with rfl | rfl
    · exact hhex _
    · exact hhex _
  have hdash : ∀ c ∈ "-".toList, nameChar c = true := List.all_eq_true.mp (by decide)
  refine nameChars_braceFree fun c hc => ?_
  rw [uuidText] at hc
  simp only [String.toList_append, String.toList_ofList, List.mem_append] at hc
  rcases hc with (((((((hc | hc) | hc) | hc) | hc) | hc) | hc) | hc) | hc
  · exact hgroup _ _ c hc
  · exact hdash c hc
  · exact hgroup _ _ c hc
  · exact hdash c hc
  · exact hgroup _ _ c hc
  · exact hdash c hc
  · exact hgroup _ _ c hc
  · exact hdash c hc
  · exact hgroup _ _ c hc

end Values

section Order

variable (env : ServerEnv) (session : Session)

/-- The known placeholders with their values, in the order of the source. -/
def replacements : Table :=
  [("shuttle".toList, session.shuttleName.toList),
    ("namespace".toList, session.namespaceName.toList),
    ("connection".toList, session.connectionName.toList),
    ("session".toList, (uuidText session.id).toList),
    ("minio_endpoint".toList, (minioEndpoint env).toList),
    ("minio_access_key".toList, ((minioAccess env).getD "minioadmin").toList),
    ("minio_secret_key".toList, ((minioSecret env).getD "minioadmin").toList)]

variable {env session}

theorem replaceText_toList {pat : String} {key : List Char} (h : pat.toList = braced key)
    (new s : String) :
    (replaceText pat new s).toList = replace (braced key) new.toList s.toList := by
  rw [replaceText, String.toList_ofList, h]

theorem substitutePlaceholders_eq (s : String) :
    (substitutePlaceholders env s session).toList =
      replaceAll (replacements env session) s.toList := by
  have hshuttle : "\x7bshuttle\x7d".toList = braced "shuttle".toList := by decide
  have hnamespace : "\x7bnamespace\x7d".toList = braced "namespace".toList := by decide
  have hconnection : "\x7bconnection\x7d".toList = braced "connection".toList := by decide
  have hsession : "\x7bsession\x7d".toList = braced "session".toList := by decide
  have hendpoint : "\x7bminio_endpoint\x7d".toList = braced "minio_endpoint".toList := by decide
  have haccess : "\x7bminio_access_key\x7d".toList = braced "minio_access_key".toList := by decide
  have hsecret : "\x7bminio_secret_key\x7d".toList = braced "minio_secret_key".toList := by decide
  simp only [substitutePlaceholders]
  rw [replaceText_toList hsecret, replaceText_toList haccess, replaceText_toList hendpoint,
    replaceText_toList hsession, replaceText_toList hconnection, replaceText_toList hnamespace,
    replaceText_toList hshuttle]
  simp only [replacements, replaceAll, List.foldl_cons, List.foldl_nil]

def placeholderKeys : List (List Char) :=
  ["shuttle", "namespace", "connection", "session", "minio_endpoint", "minio_access_key",
    "minio_secret_key"].map String.toList

theorem replacements_key {r : List Char × List Char} (hr : r ∈ replacements env session) :
    r.1 ∈ placeholderKeys := by
  have hkeys : (replacements env session).map Prod.fst = placeholderKeys := rfl
  rw [← hkeys]
  exact List.mem_map_of_mem hr

theorem replacements_keys : ((replacements env session).map Prod.fst).Nodup := by
  have hkeys : placeholderKeys.Nodup := by decide
  exact hkeys

theorem replacements_braceFree : ∀ r ∈ replacements env session, BraceFree r.1 := by
  have hall : ∀ key ∈ placeholderKeys, '\x7b' ∉ key ∧ '\x7d' ∉ key := by decide
  exact fun r hr => hall r.1 (replacements_key hr)

theorem replacements_values {p : List Char → Prop}
    (hnames : ∀ name ∈ [session.shuttleName, session.namespaceName, session.connectionName],
      p name.toList)
    (hid : p (uuidText session.id).toList)
    (hvars : ∀ value ∈ [minioEndpoint env, (minioAccess env).getD "minioadmin",
      (minioSecret env).getD "minioadmin"], p value.toList) :
    ∀ r ∈ replacements env session, p r.2 := by
  intro r hr
  have hvalue : r.2 ∈ (replacements env session).map Prod.snd := List.mem_map_of_mem hr
  simp only [replacements, List.map_cons, List.map_nil, List.mem_cons, List.not_mem_nil,
    or_false] at hvalue
  rcases hvalue with hv | hv | hv | hv | hv | hv | hv
  · rw [hv]
    exact hnames _ (by simp)
  · rw [hv]
    exact hnames _ (by simp)
  · rw [hv]
    exact hnames _ (by simp)
  · rw [hv]
    exact hid
  · rw [hv]
    exact hvars _ (by simp)
  · rw [hv]
    exact hvars _ (by simp)
  · rw [hv]
    exact hvars _ (by simp)

theorem replacements_clean (h : ∀ r ∈ replacements env session, BraceFree r.2) :
    Clean (replacements env session) :=
  fun r hr => ⟨replacements_braceFree r hr, h r hr⟩

/-- In a template without nested braces, values without braces can be put in at once or in any
order, and no placeholder remains. -/
theorem substitution_order {s : String} (hs : Unnested s.toList)
    (hvalues : ∀ r ∈ replacements env session, BraceFree r.2) :
    (substitutePlaceholders env s session).toList =
        singlePass (replacements env session) s.toList ∧
      (∀ order, order.Perm (replacements env session) →
        replaceAll order s.toList = (substitutePlaceholders env s session).toList) ∧
      ∀ r ∈ replacements env session,
        contains (braced r.1) (substitutePlaceholders env s session).toList = false := by
  have hclean := replacements_clean hvalues
  have htemplate := template_of_unnested hs
  have hpass := replaceAll_eq_pass hclean htemplate
  rw [substitutePlaceholders_eq]
  refine ⟨hpass, ?_, ?_⟩
  · intro order hperm
    exact replaceAll_perm hclean replacements_keys hperm htemplate
  · intro r hr
    rw [← Bool.not_eq_true, contains_iff, hpass]
    exact pass_complete hclean htemplate hr

theorem session_safe {sha256 : String → Digest} {id : Uuid} (h : WellFormed sha256 id session) :
    ∀ name ∈ [session.shuttleName, session.namespaceName, session.connectionName],
      isSafeIdentifier name = true := by
  intro name hname
  simp only [List.mem_cons, List.not_mem_nil, or_false] at hname
  rcases hname with rfl | rfl | rfl
  · rw [h.shuttleName]
    exact (deriveShuttle_form sha256 session.userId session.id).safe
  · rw [h.namespaceName]
    exact (deriveNamespace_form sha256 session.userId session.id).safe
  · rw [h.connectionName, h.shuttleName]
    exact (deriveConnection_form sha256 session.userId session.id).safe

def demoSession : Session := Session.new (fun _ => 0) 1 ⟨0, 0⟩ "u1" none "demo" 300

theorem demoSession_wellFormed : WellFormed (fun _ => 0) 1 demoSession where
  id := rfl
  status := by decide
  namespaceName := rfl
  shuttleName := rfl
  connectionName := rfl

theorem substitution_order_demo :
    (substitutePlaceholders configured "USE \x7bnamespace\x7d.\x7bother\x7d"
      demoSession).toList =
    singlePass (replacements configured demoSession)
      "USE \x7bnamespace\x7d.\x7bother\x7d".toList := by
  have hpieces : "USE \x7bnamespace\x7d.\x7bother\x7d".toList = "USE ".toList ++
      (braced "namespace".toList ++ ('.' :: (braced "other".toList ++ []))) := by decide
  have htemplate : Template "USE \x7bnamespace\x7d.\x7bother\x7d".toList := by
    rw [hpieces]
    exact .append ⟨by decide, by decide⟩ (.braced ⟨by decide, by decide⟩
      (.plain (by decide) (.braced ⟨by decide, by decide⟩ .nil)))
  have hvars : ∀ value ∈ [minioEndpoint configured, (minioAccess configured).getD "minioadmin",
      (minioSecret configured).getD "minioadmin"], BraceFree value.toList := by
    have hall : ∀ value ∈ ["http://minio:9000", "minioadmin", "minioadmin"],
        '\x7b' ∉ value.toList ∧ '\x7d' ∉ value.toList := by decide
    exact hall
  have hnames := session_safe demoSession_wellFormed
  exact (substitution_order (unnested_iff.mpr htemplate) (replacements_values
    (fun name hname => identifier_braceFree (hnames name hname)) (uuidText_braceFree 1) hvars)).1

end Order

section Detection

def looksLikePlaceholder (inner : List Char) : Bool :=
  !inner.isEmpty && decide (utf8Len inner ≤ 40) && !"source_".toList.isPrefixOf inner &&
    inner.all nameChar

/-- The loop of `detect_unresolved_placeholder` from the byte offset `i`, with the bytes from there.
The outer `none` is the panic of a slice. -/
def detectFrom (s : List Char) (i : ℕ) : List UInt8 → Option (Option String)
  | [] => some none
  | b :: rest =>
    if b != '\x7b'.toUInt8 then detectFrom s (i + 1) rest
    else
      match rest.findIdx? (· == '\x7d'.toUInt8) with
      | none => some none
      | some endOff =>
        let start := i + 1
        let stop := start + endOff
        match slice s start stop with
        | none => none
        | some inner =>
          if looksLikePlaceholder inner then some (some (String.ofList (braced inner)))
          else detectFrom s (stop + 1) (rest.drop (endOff + 1))
  termination_by bytes => bytes.length
  decreasing_by
    · simp
    · simp only [List.length_drop, List.length_cons]
      omega

def detectUnresolvedPlaceholder (s : String) : Option (Option String) :=
  detectFrom s.toList 0 (asBytes s)

/-- What a fragment reports: one to forty letters, digits, underscores and dashes that do not start
with `source_`. -/
structure PlaceholderName (t : List Char) : Prop where
  nonempty : 1 ≤ t.length
  short : t.length ≤ 40
  chars : ∀ c ∈ t, nameChar c = true
  notSource : ¬ "source_".toList <+: t

variable {s t : List Char}

theorem nameChars_length (h : ∀ c ∈ t, nameChar c = true) : utf8Len t = t.length := by
  induction t with
  | nil => rfl
  | cons c t ih =>
    rw [String.utf8Len_cons, ih fun d hd => h d (List.mem_cons_of_mem c hd),
      utf8Size_ascii (nameChar_range (h c List.mem_cons_self)).1, List.length_cons]

theorem looksLikePlaceholder_iff : looksLikePlaceholder t = true ↔ PlaceholderName t := by
  simp only [looksLikePlaceholder, Bool.and_eq_true, Bool.not_eq_true', decide_eq_true_eq,
    List.all_eq_true, List.isEmpty_eq_false_iff]
  constructor
  · rintro ⟨⟨⟨hne, hlen⟩, hsource⟩, hchars⟩
    rw [nameChars_length hchars] at hlen
    refine ⟨List.length_pos_iff.mpr hne, hlen, hchars, ?_⟩
    rw [← List.isPrefixOf_iff_prefix, hsource]
    exact Bool.false_ne_true
  · rintro ⟨hne, hlen, hchars, hsource⟩
    rw [nameChars_length hchars, ← Bool.not_eq_true, List.isPrefixOf_iff_prefix]
    exact ⟨⟨⟨List.length_pos_iff.mp hne, hlen⟩, hsource⟩, hchars⟩

theorem looks_closing (h : looksLikePlaceholder t = true) : '\x7d' ∉ t := by
  intro hmem
  have hchar := (looksLikePlaceholder_iff.mp h).chars _ hmem
  exact (nameChar_range hchar).2.2 rfl

theorem detectFrom_skip (s : List Char) {bytes : List UInt8} (h : '\x7b'.toUInt8 ∉ bytes) (i : ℕ)
    (rest : List UInt8) :
    detectFrom s i (bytes ++ rest) = detectFrom s (i + bytes.length) rest := by
  induction bytes generalizing i with
  | nil => rfl
  | cons b bytes ih =>
    rw [List.mem_cons, not_or] at h
    have hb : (b != '\x7b'.toUInt8) = true := bne_iff_ne.mpr (Ne.symm h.1)
    rw [List.cons_append, detectFrom, if_pos hb, ih h.2, List.length_cons]
    congr 1
    omega

theorem length_encode (s : List Char) : (s.flatMap utf8EncodeChar).length = utf8Len s := by
  induction s with
  | nil => rfl
  | cons c s ih =>
    rw [List.flatMap_cons, List.length_append, ih, String.length_utf8EncodeChar,
      String.utf8Len_cons, Nat.add_comm]

theorem find_closing (ht : '\x7d' ∉ t) (rest : List UInt8) :
    (t.flatMap utf8EncodeChar ++ '\x7d'.toUInt8 :: rest).findIdx? (· == '\x7d'.toUInt8) =
      some (utf8Len t) := by
  have hnone : ∀ b ∈ t.flatMap utf8EncodeChar, (b == '\x7d'.toUInt8) = false := by
    intro b hb
    obtain ⟨c, hc, hb⟩ := List.mem_flatMap.mp hb
    rw [beq_eq_false_iff_ne]
    rintro rfl
    rw [(mem_encode_ascii (by decide)).mp hb] at hc
    exact ht hc
  rw [List.findIdx?_append, List.findIdx?_eq_none_iff.mpr hnone, List.findIdx?_cons,
    length_encode]
  simp

theorem find_unclosed (hs : '\x7d' ∉ s) :
    (s.flatMap utf8EncodeChar).findIdx? (· == '\x7d'.toUInt8) = none := by
  rw [List.findIdx?_eq_none_iff]
  intro b hb
  obtain ⟨c, hc, hb⟩ := List.mem_flatMap.mp hb
  rw [beq_eq_false_iff_ne]
  rintro rfl
  rw [(mem_encode_ascii (by decide)).mp hb] at hc
  exact hs hc

theorem encode_opening (s : List Char) :
    ('\x7b' :: s).flatMap utf8EncodeChar = '\x7b'.toUInt8 :: s.flatMap utf8EncodeChar := rfl

/-- The loop over the bytes is the scan of the characters, and none of its slices panics. -/
theorem detectFrom_eq (front s : List Char) :
    detectFrom (front ++ s) (utf8Len front) (s.flatMap utf8EncodeChar) =
      some ((firstPaired looksLikePlaceholder s).map fun t => String.ofList (braced t)) := by
  induction pieces s generalizing front with
  | nil =>
    rw [List.flatMap_nil, detectFrom, firstPaired]
    rfl
  | @plain c s hc _ ih =>
    have hskip : '\x7b'.toUInt8 ∉ utf8EncodeChar c := fun hmem =>
      hc ((mem_encode_ascii (by decide)).mp hmem)
    have hfront := ih (front ++ [c])
    rw [List.append_assoc, List.singleton_append, String.utf8Len_append] at hfront
    rw [List.flatMap_cons, detectFrom_skip _ hskip, firstPaired_plain hc, ← hfront,
      String.length_utf8EncodeChar]
    congr 1
    simp [String.utf8Len_cons]
  | @braced inner s hinner _ ih =>
    have hslice : slice (front ++ (braced inner ++ s)) (utf8Len front + 1)
        (utf8Len front + 1 + utf8Len inner) = some inner := by
      have hmiddle := slice_middle (front ++ ['\x7b']) inner ('\x7d' :: s)
      have hlen : utf8Len (front ++ ['\x7b']) = utf8Len front + 1 := by
        rw [String.utf8Len_append]
        rfl
      rw [hlen] at hmiddle
      rw [braced_append]
      simpa using hmiddle
    have hfront := ih (front ++ braced inner)
    have hlen : utf8Len (front ++ braced inner) = utf8Len front + 1 + utf8Len inner + 1 := by
      have hopening : '\x7b'.utf8Size = 1 := rfl
      have hclosing : utf8Len ['\x7d'] = 1 := rfl
      rw [braced, String.utf8Len_append, String.utf8Len_cons, String.utf8Len_append, hopening,
        hclosing]
      omega
    rw [List.append_assoc, hlen] at hfront
    have hbytes : (braced inner ++ s).flatMap utf8EncodeChar = '\x7b'.toUInt8 ::
        (inner.flatMap utf8EncodeChar ++ '\x7d'.toUInt8 :: s.flatMap utf8EncodeChar) := by
      rw [braced_append, encode_opening, List.flatMap_append]
      rfl
    rw [hbytes, detectFrom, if_neg (by simp), find_closing hinner, firstPaired_braced hinner]
    dsimp only
    rw [hslice]
    dsimp only
    by_cases hlooks : looksLikePlaceholder inner = true
    · rw [if_pos hlooks, if_pos hlooks]
      rfl
    · have hdrop : (inner.flatMap utf8EncodeChar ++ '\x7d'.toUInt8 ::
          s.flatMap utf8EncodeChar).drop (utf8Len inner + 1) = s.flatMap utf8EncodeChar := by
        rw [← length_encode, ← List.drop_drop, List.drop_left]
        rfl
      rw [if_neg hlooks, if_neg hlooks, hdrop, hfront]
  | @unclosed s hs =>
    rw [encode_opening, detectFrom, if_neg (by simp), find_unclosed hs, firstPaired_unclosed hs]
    rfl

theorem detectUnresolvedPlaceholder_eq (s : String) : detectUnresolvedPlaceholder s =
    some ((firstPaired looksLikePlaceholder s.toList).map fun t => String.ofList (braced t)) := by
  rw [detectUnresolvedPlaceholder, asBytes_eq]
  exact detectFrom_eq [] s.toList

def FirstFragment (s t : List Char) : Prop := Leftmost (fun _ => True) PlaceholderName s t

/-- The leftmost one among those before which every opening brace has been closed. -/
def FirstClear (s t : List Char) : Prop :=
  Leftmost (fun before => ¬ OpenAfter before) PlaceholderName s t

theorem firstPaired_firstClear :
    firstPaired looksLikePlaceholder s = some t ↔ FirstClear s t := by
  have hname : (fun t => looksLikePlaceholder t = true) = PlaceholderName := by
    funext t
    exact propext looksLikePlaceholder_iff
  rw [firstPaired_iff fun t ht => looks_closing ht, hname, FirstClear]

theorem PlaceholderName.closing (h : PlaceholderName t) : '\x7d' ∉ t :=
  looks_closing (looksLikePlaceholder_iff.mpr h)

/-- The scan does not panic, reports a placeholder exactly where the text has one, and reports the
leftmost. -/
structure DetectsAll (s : String) : Prop where
  total : detectUnresolvedPlaceholder s ≠ none
  reports : (∃ text, detectUnresolvedPlaceholder s = some (some text)) ↔
    ∃ before t after, s.toList = before ++ (braced t ++ after) ∧ PlaceholderName t
  leftmost : ∀ text, detectUnresolvedPlaceholder s = some (some text) →
    ∃ t, text = String.ofList (braced t) ∧ FirstFragment s.toList t

theorem detects_iff (s : String) :
    DetectsAll s ↔ ∀ t, FirstFragment s.toList t → FirstClear s.toList t := by
  have hfound : ∀ text, detectUnresolvedPlaceholder s = some (some text) ↔
      ∃ t, FirstClear s.toList t ∧ String.ofList (braced t) = text := by
    intro text
    rw [detectUnresolvedPlaceholder_eq, Option.some.injEq, Option.map_eq_some_iff]
    simp only [firstPaired_firstClear]
  have hunique : ∀ {t t'}, FirstFragment s.toList t → FirstFragment s.toList t' → t = t' :=
    fun h h' => Leftmost.unique (fun _ ht => ht.closing) h h'
  constructor
  · rintro ⟨-, hreports, hleftmost⟩ t ht
    obtain ⟨before, after, hsplit, hname, -, -⟩ := id ht
    obtain ⟨text, htext⟩ := hreports.mpr ⟨before, t, after, hsplit, hname⟩
    obtain ⟨t', hclear, rfl⟩ := (hfound text).mp htext
    obtain ⟨t'', heq, hfirst⟩ := hleftmost _ htext
    have hsame : braced t' = braced t'' := String.ofList_inj.mp heq
    have ht' : t' = t'' := by simpa [braced] using hsame
    rw [hunique ht hfirst, ← ht']
    exact hclear
  · intro h
    have hfirst : ∀ {before t after}, s.toList = before ++ (braced t ++ after) →
        PlaceholderName t → ∃ t', FirstFragment s.toList t' ∧ FirstClear s.toList t' := by
      intro before t after hsplit hname
      obtain ⟨t', ht'⟩ : ∃ t', FirstFragment s.toList t' := exists_leftmost hsplit hname trivial
      exact ⟨t', ht', h t' ht'⟩
    refine ⟨?_, ⟨?_, ?_⟩, ?_⟩
    · rw [detectUnresolvedPlaceholder_eq]
      exact Option.some_ne_none _
    · rintro ⟨text, htext⟩
      obtain ⟨t, ⟨before, after, hsplit, hname, -, -⟩, -⟩ := (hfound text).mp htext
      exact ⟨before, t, after, hsplit, hname⟩
    · rintro ⟨before, t, after, hsplit, hname⟩
      obtain ⟨t', -, hclear⟩ := hfirst hsplit hname
      exact ⟨_, (hfound _).mpr ⟨t', hclear, rfl⟩⟩
    · intro text htext
      obtain ⟨t, hclear, rfl⟩ := (hfound text).mp htext
      obtain ⟨before, after, hsplit, hname, -, -⟩ := id hclear
      obtain ⟨t', ht', hclear'⟩ := hfirst hsplit hname
      have hsame : t = t' := Leftmost.unique (fun _ ht => ht.closing) hclear hclear'
      exact ⟨t', by rw [hsame], ht'⟩

/-- The opening brace of a JSON text is paired with the closing brace of the placeholder in it. -/
theorem nested_placeholder_missed : ¬ ∀ s, DetectsAll s := by
  intro h
  have hfragment : "\x7b\"id\":\"\x7bsesion\x7d\"\x7d".toList =
      "\x7b\"id\":\"".toList ++ (braced "sesion".toList ++ "\"\x7d".toList) := by decide
  have hname : PlaceholderName "sesion".toList := looksLikePlaceholder_iff.mp (by decide)
  obtain ⟨text, htext⟩ := (h "\x7b\"id\":\"\x7bsesion\x7d\"\x7d").reports.mpr
    ⟨_, _, _, hfragment, hname⟩
  have hpiece : "\x7b\"id\":\"\x7bsesion\x7d\"\x7d".toList =
      braced "\"id\":\"\x7bsesion".toList ++ ['"', '\x7d'] := by decide
  have hlooks : looksLikePlaceholder "\"id\":\"\x7bsesion".toList = false := by decide
  rw [detectUnresolvedPlaceholder_eq, hpiece, firstPaired_braced (by decide), hlooks,
    if_neg Bool.false_ne_true, firstPaired_plain (by decide), firstPaired_plain (by decide),
    firstPaired] at htext
  cases htext

end Detection

end PlaygroundPlaceholders
