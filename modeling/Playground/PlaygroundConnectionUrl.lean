import Playground.PercentCoding
import Playground.PlaygroundOperations

/-! # The connection URL of the postgres pool

The password comes from a secret file or a variable and is percent-encoded; the other parts of the
URL are written as they are. -/
namespace PlaygroundConnectionUrl

open PercentCoding
open PlaygroundOperations (DispatchError)

def isUnreserved (ch : Char) : Bool :=
  ch.isUpper || ch.isLower || ch.isDigit || ch == '-' || ch == '_' || ch == '.' || ch == '~'

def urlEncode (s : String) : String :=
  String.ofList (s.toList.flatMap fun ch =>
    if isUnreserved ch then [ch]
    else (String.utf8EncodeChar ch).flatMap fun b =>
      ['%', upperHex (b.toNat / 16), upperHex (b.toNat % 16)])

def envOr (env : String → Option String) (key default : String) : String := (env key).getD default

/-- `u16::from_str` after an optional plus sign, from the value of the digits read before. -/
def parseDigits (result : ℕ) : List Char → Except String ℕ
  | [] => .ok result
  | c :: rest =>
    if c.isDigit then
      let next := result * 10 + (c.toNat - '0'.toNat)
      if 65535 < next then .error "number too large to fit in target type"
      else parseDigits next rest
    else .error "invalid digit found in string"

def parseU16 (s : String) : Except String ℕ :=
  match s.toList with
  | [] => .error "cannot parse integer from empty string"
  | ['+'] | ['-'] => .error "invalid digit found in string"
  | '+' :: digits => parseDigits 0 digits
  | digits => parseDigits 0 digits

def envU16 (env : String → Option String) (key : String) (default : ℕ) :
    Except DispatchError ℕ :=
  match env key with
  | none => .ok default
  | some v =>
    match parseU16 v with
    | .ok n => .ok n
    | .error e => .error (.config (key ++ "=" ++ v ++ ": " ++ e))

/-- The secret file if it exists, with the result of reading it, else the variable. -/
def loadSecret (env : String → Option String) (file : Option (Except String String))
    (envKey secretPath : String) : Except DispatchError String :=
  match file with
  | some (.ok raw) => .ok (String.ofList (RustText.trim raw.toList))
  | some (.error e) => .error (.config ("read " ++ secretPath ++ ": " ++ e))
  | none =>
    match env envKey with
    | some v => .ok v
    | none => .error (.config ("playground password not found at " ++ secretPath ++ " and $" ++
        envKey ++ " unset"))

def pgUrl (user password host : String) (port : ℕ) (db : String) : String :=
  "postgres://" ++ user ++ ":" ++ urlEncode password ++ "@" ++ host ++ ":" ++ toString port ++
    "/" ++ db ++ "?sslmode=disable"

def pgUser (env : String → Option String) : String :=
  envOr env "DS_PG_PLAYGROUND_USER" "playground_admin"

def pgPassword (env : String → Option String) (file : Option (Except String String)) :
    Except DispatchError String :=
  loadSecret env file "DS_PG_PLAYGROUND_PASSWORD" "/run/secrets/pg_playground_password"

/-- The URL `build_pg_pool` connects to. -/
def buildPgUrl (env : String → Option String) (file : Option (Except String String)) :
    Except DispatchError String :=
  let host := envOr env "DS_PG_PLAYGROUND_HOST" "postgres-playground"
  match envU16 env "DS_PG_PLAYGROUND_PORT" 5432 with
  | .error e => .error e
  | .ok port =>
    let db := envOr env "DS_PG_PLAYGROUND_DB" "playground"
    match pgPassword env file with
    | .error e => .error e
    | .ok password => .ok (pgUrl (pgUser env) password host port db)

example : urlEncode "p@ss:wor/d" = "p%40ss%3Awor%2Fd" := by decide

section Encoding

theorem urlEncode_toList (s : String) : (urlEncode s).toList = encode isUnreserved s.toList := by
  rw [urlEncode, String.toList_ofList]
  rfl

theorem urlEncode_inj {s t : String} (h : urlEncode s = urlEncode t) : s = t := by
  apply String.toList_injective
  apply encode_inj (show isUnreserved '%' = false by decide)
  rw [← urlEncode_toList, ← urlEncode_toList, h]

def isDelimiter (c : Char) : Bool := ":/?#[]@".toList.contains c

theorem isDelimiter_kept {c : Char} (h : isDelimiter c = true) : isUnreserved c = false := by
  have hall : ∀ d ∈ ":/?#[]@".toList, isUnreserved d = false :=
    List.all_iff_forall_prop.mp (by decide)
  exact hall c (by simpa [isDelimiter] using h)

theorem urlEncode_plain (s : String) : ∀ c ∈ (urlEncode s).toList, isDelimiter c = false := by
  intro c hc
  rw [urlEncode_toList] at hc
  rw [← Bool.not_eq_true]
  intro hdelimiter
  rcases (encoded_encode s.toList).chars c hc with hkept | hdigit
  · rw [isDelimiter_kept hdelimiter] at hkept
    cases hkept
  · have hall : ∀ d ∈ "%0123456789ABCDEF".toList, isDelimiter d = false :=
      List.all_iff_forall_prop.mp (by decide)
    rw [hall c hdigit] at hdelimiter
    cases hdelimiter

end Encoding

section Urls

variable {user password : String}

def beforePassword (user : String) : String := "postgres://" ++ user ++ ":"

/-- What is read of a URL as the password: the text after the user and the colon, up to the next
delimiter. -/
def passwordPart (user url : String) : List Char :=
  (url.toList.drop (beforePassword user).toList.length).takeWhile fun c => !isDelimiter c

def afterPassword (user url : String) : List Char :=
  (url.toList.drop (beforePassword user).toList.length).dropWhile fun c => !isDelimiter c

theorem pgUrl_split (user password host : String) (port : ℕ) (db : String) :
    pgUrl user password host port db = beforePassword user ++ (urlEncode password ++
      ("@" ++ host ++ ":" ++ toString port ++ "/" ++ db ++ "?sslmode=disable")) := by
  unfold pgUrl beforePassword
  simp only [String.append_assoc]

/-- The encoded password is all that stands between the colon and the sign of the host. -/
theorem pgUrl_password (user password host : String) (port : ℕ) (db : String) :
    passwordPart user (pgUrl user password host port db) = (urlEncode password).toList ∧
      afterPassword user (pgUrl user password host port db) =
        ("@" ++ host ++ ":" ++ toString port ++ "/" ++ db ++ "?sslmode=disable").toList := by
  have hplain : ∀ c ∈ (urlEncode password).toList, (!isDelimiter c) = true := by
    intro c hc
    rw [urlEncode_plain password c hc]
    rfl
  obtain ⟨tail, htail⟩ : ∃ tail, ("@" ++ host ++ ":" ++ toString port ++ "/" ++ db ++
      "?sslmode=disable").toList = '@' :: tail := by
    simp only [String.append_assoc]
    rw [String.toList_append]
    exact ⟨_, rfl⟩
  have hstop : (!isDelimiter '@') = false := by decide
  rw [passwordPart, afterPassword, pgUrl_split, String.toList_append, List.drop_left,
    String.toList_append, htail, List.takeWhile_append_of_pos hplain,
    List.dropWhile_append_of_pos hplain, List.takeWhile_cons, List.dropWhile_cons, hstop]
  simp

theorem pgUrl_inj {user password other host host' db db' : String} {port port' : ℕ}
    (h : pgUrl user password host port db = pgUrl user other host' port' db') :
    password = other := by
  have hpart := (pgUrl_password user password host port db).1
  rw [h, (pgUrl_password user other host' port' db').1] at hpart
  exact urlEncode_inj (String.toList_injective hpart.symm)

variable {env env' : String → Option String} {file file' : Option (Except String String)}
  {url : String}

theorem buildPgUrl_ok (h : buildPgUrl env file = .ok url) : ∃ password host port db,
    pgPassword env file = .ok password ∧ url = pgUrl (pgUser env) password host port db := by
  rw [buildPgUrl] at h
  cases hport : envU16 env "DS_PG_PLAYGROUND_PORT" 5432 with
  | error e =>
    rw [hport] at h
    cases h
  | ok port =>
    cases hpassword : pgPassword env file with
    | error e =>
      rw [hport, hpassword] at h
      cases h
    | ok password =>
      rw [hport, hpassword] at h
      exact ⟨password, _, port, _, rfl, (Except.ok.inj h).symm⟩

theorem buildPgUrl_password (huser : pgUser env = pgUser env') (h : buildPgUrl env file = .ok url)
    (h' : buildPgUrl env' file' = .ok url) : pgPassword env file = pgPassword env' file' := by
  obtain ⟨password, host, port, db, hpassword, rfl⟩ := buildPgUrl_ok h
  obtain ⟨other, host', port', db', hother, hurl⟩ := buildPgUrl_ok h'
  rw [huser] at hurl
  rw [hpassword, hother, pgUrl_inj hurl]

end Urls

/-- An encoded password has only unreserved characters and escapes and is read back as its bytes.
So it ends where the part of the password ends in the URL, and another one gives another URL. -/
theorem password_round_trip (password : String) :
    Encoded isUnreserved (urlEncode password).toList ∧
      decode (urlEncode password).toList = RustText.asBytes password ∧
      (∀ other, urlEncode other = urlEncode password → other = password) ∧
      (∀ user host port db,
        passwordPart user (pgUrl user password host port db) = (urlEncode password).toList ∧
        afterPassword user (pgUrl user password host port db) =
          ("@" ++ host ++ ":" ++ toString port ++ "/" ++ db ++ "?sslmode=disable").toList) ∧
      ∀ env file env' file' url, pgUser env = pgUser env' → buildPgUrl env file = .ok url →
        buildPgUrl env' file' = .ok url → pgPassword env file = pgPassword env' file' := by
  refine ⟨?_, ?_, fun other h => urlEncode_inj h, ?_, ?_⟩
  · rw [urlEncode_toList]
    exact encoded_encode password.toList
  · rw [urlEncode_toList, decode_encode (by decide), RustText.asBytes_eq]
  · intro user host port db
    exact pgUrl_password user password host port db
  · intro env file env' file' url huser h h'
    exact buildPgUrl_password huser h h'

end PlaygroundConnectionUrl
