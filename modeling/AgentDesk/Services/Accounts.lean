import AgentDesk.Services.Webhooks

namespace AgentDesk

variable {S : Type}

inductive TokenType where
  | access | refresh
  deriving DecidableEq

/-- The claims of a token, times in seconds; `sub` is missing or no UUID when `none`. -/
structure Claims where
  sub : Option Uuid
  type : Option TokenType
  iat : Nat
  exp : Nat
  org : Option Uuid
  role : Option Role
  deriving DecidableEq

/-- What a caller presents: signed claims, or a string that is no token. -/
inductive Token where
  | malformed (s : String)
  | signed (key : String) (claims : Claims)
  deriving DecidableEq

structure TokenPair where
  accessToken : Token
  refreshToken : Token
  deriving DecidableEq

/-! `core/security.py` -/

def hashPassword (P : Platform) (password : String) : M S String := do
  return P.hashPassword password (← salt)

def createToken (cfg : Config S) (sub : Uuid) (type : TokenType) (seconds : Nat) (org : Option Uuid)
    (role : Option Role) : M S Token := do
  let now ← clock
  let iat := now / 1000000
  pure (.signed cfg.settings.jwtSecret ⟨some sub, some type, iat, iat + seconds, org, role⟩)

def createAccessToken (cfg : Config S) (user : User) : M S Token :=
  createToken cfg user.id .access (cfg.settings.accessTokenMinutes * 60)
    (some user.organizationId) (some user.role)

def createRefreshToken (cfg : Config S) (user : User) : M S Token :=
  createToken cfg user.id .refresh (cfg.settings.refreshTokenDays * 86400) none none

/-- Decode and validate a token; raises on any problem, a wrong type included. -/
def decodeToken (cfg : Config S) (token : Token) (expected : TokenType) : M S Claims := do
  match token with
  | .malformed _ => M.raise (.jwt "Not enough segments")
  | .signed key claims =>
    if key ≠ cfg.settings.jwtSecret then M.raise (.jwt "Signature verification failed.")
    else
      let now ← clock
      if claims.exp < now / 1000000 then M.raise (.jwt "Signature has expired.")
      else if claims.type ≠ some expected then
        M.raise (.jwt ("expected " ++
          (match expected with | .access => "access" | .refresh => "refresh") ++ " token"))
      else pure claims

/-- The user id of a token, `uuid.UUID(payload["sub"])`. -/
def subject (cfg : Config S) (token : Token) (expected : TokenType) : M S Uuid := do
  let claims ← decodeToken cfg token expected
  match claims.sub with
  | none => M.raise (.value "badly formed hexadecimal UUID string")
  | some id => pure id

namespace AuthService

def tokenPair (cfg : Config S) (user : User) : M S TokenPair := do
  let accessToken ← createAccessToken cfg user
  let refreshToken ← createRefreshToken cfg user
  pure { accessToken, refreshToken }

def register (cfg : Config S) (organizationName email password : String) : M S TokenPair := do
  match ← query (.organizationByName organizationName) with
  | some _ => M.raise (.conflict "Organization name already taken")
  | none =>
    let organizationId ← uuid4
    add (.organization { id := organizationId, name := organizationName, createdAt := 0 })
    flush
    let hashedPassword ← hashPassword cfg.platform password
    let id ← uuid4
    add (.user
      { id, organizationId, email := cfg.platform.lower email, hashedPassword, role := .admin,
        isActive := true, createdAt := 0 })
    commit
    let user ← refreshUser id
    tokenPair cfg user

def authenticate (cfg : Config S) (email password : String) : M S (TokenPair × User) := do
  match ← query (.userByEmail (cfg.platform.lower email)) with
  | none => M.raise (.auth "Invalid credentials")
  | some user =>
    if !user.isActive || !cfg.platform.verifyPassword password user.hashedPassword then
      M.raise (.auth "Invalid credentials")
    else return (← tokenPair cfg user, user)

def refresh (cfg : Config S) (refreshToken : Token) : M S TokenPair := do
  let id ← M.except (subject cfg refreshToken .refresh) fun exc =>
    match exc with
    | .jwt _ | .value _ => M.raise (.auth "Invalid refresh token")
    | _ => M.raise exc
  match ← query (.user id) with
  | none => M.raise (.auth "Invalid refresh token")
  | some user =>
    if !user.isActive then M.raise (.auth "Invalid refresh token")
    else tokenPair cfg user

end AuthService

namespace UserService

def listUsers (organizationId : Uuid) : M S (List User) := query (.usersOf organizationId)

def createUser (cfg : Config S) (organizationId : Uuid) (email password : String) (role : Role) :
    M S User := do
  match ← query (.userInOrganization organizationId (cfg.platform.lower email)) with
  | some _ =>
    M.raise (.conflict "A user with this email already exists in the organization")
  | none =>
    let hashedPassword ← hashPassword cfg.platform password
    let id ← uuid4
    add (.user
      { id, organizationId, email := cfg.platform.lower email, hashedPassword, role,
        isActive := true, createdAt := 0 })
    commit
    refreshUser id

end UserService

/-! `core/deps.py` and `rbac.py` -/

def credentialsError : Err := .http 401 "Could not validate credentials"

/-- Resolve the current user from the bearer token. -/
def getCurrentUser (cfg : Config S) (creds : Option Token) : M S User := do
  match creds with
  | none | some (.malformed "") => M.raise credentialsError
  | some token =>
    let id ← M.except (subject cfg token .access) fun exc =>
      match exc with
      | .jwt _ | .value _ => M.raise credentialsError
      | _ => M.raise exc
    match ← query (.user id) with
    | none => M.raise credentialsError
    | some user => if !user.isActive then M.raise credentialsError else pure user

/-- The dependency `require_role(*allowed)`. -/
def requireRole (cfg : Config S) (allowed : List Role) (creds : Option Token) : M S User := do
  let user ← getCurrentUser cfg creds
  if !allowed.isEmpty && !allowed.contains user.role then
    M.raise (.http 403 "Insufficient role for this action")
  else pure user

end AgentDesk
