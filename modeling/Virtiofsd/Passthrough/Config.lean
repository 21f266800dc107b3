/-
  # Configuration of the passthrough file system

  The settings `PassthroughFs` reads while it serves requests, and the pure functions they
  parameterise: the translation of the guest's open flags (`open_flags.rs`), the rules that
  rename extended attributes (`xattrmap.rs`) and the id maps.
-/
import Virtiofsd.InodeStore

namespace Virtiofsd

/-! ## 1. Open flags -/

def O_ACCMODE : UInt32 := 0o3
def O_RDONLY : UInt32 := 0o0
def O_WRONLY : UInt32 := 0o1
def O_RDWR : UInt32 := 0o2
def O_CREAT : UInt32 := 0o100
def O_EXCL : UInt32 := 0o200
def O_TRUNC : UInt32 := 0o1000
def O_APPEND : UInt32 := 0o2000
def O_NONBLOCK : UInt32 := 0o4000
def O_DIRECT : UInt32 := 0o40000
def O_DIRECTORY : UInt32 := 0o200000
def O_NOFOLLOW : UInt32 := 0o400000
def O_NOATIME : UInt32 := 0o1000000
def O_CLOEXEC : UInt32 := 0o2000000
def O_PATH : UInt32 := 0o10000000
def O_TMPFILE_BIT : UInt32 := 0o20000000

/-- `GuestArch`. -/
inductive GuestArch where
  | x86_64
  | aarch64
  deriving DecidableEq

/-- `GuestArch::HOST`: the host is an x86_64 Linux machine here. -/
def GuestArch.host : GuestArch := .x86_64

/-- `ArchOpenFlags`: the four open flags whose value depends on the architecture. -/
structure ArchOpenFlags where
  direct : UInt32
  largefile : UInt32
  directory : UInt32
  nofollow : UInt32

/-- `GuestArch::flags`. -/
def GuestArch.flags : GuestArch → ArchOpenFlags
  | .x86_64 => ⟨0o40000, 0o100000, 0o200000, 0o400000⟩
  | .aarch64 => ⟨0o200000, 0o400000, 0o40000, 0o100000⟩

/-- `ArchOpenFlags::mask`. -/
def ArchOpenFlags.mask (f : ArchOpenFlags) : UInt32 :=
  f.direct ||| f.largefile ||| f.directory ||| f.nofollow

/-- `linux_to_linux_open_flags`. -/
def linuxToLinuxOpenFlags (linuxFlags : UInt32) (guest host : GuestArch) : UInt32 :=
  if guest = host then linuxFlags
  else
    let src := guest.flags
    let dst := host.flags
    [(src.direct, dst.direct), (src.largefile, dst.largefile), (src.directory, dst.directory),
      (src.nofollow, dst.nofollow)].foldl
      (fun flags pair => if linuxFlags &&& pair.1 ≠ 0 then flags ||| pair.2 else flags)
      (linuxFlags &&& ~~~src.mask)

/-! ## 2. Renaming extended attributes -/

/-- `xattrmap::Type`, without `Map`, which the parser expands. -/
inductive XattrRuleType where
  | addPrefix
  | okay
  | bad
  | unsupported
  deriving DecidableEq

/-- `xattrmap::Rule`. -/
structure XattrRule where
  client : Bool
  server : Bool
  type : XattrRuleType
  key : Name
  prepend : Name
  deriving DecidableEq

/-- `Rule::matches` in scope `CLIENT`. -/
def XattrRule.matchesClient (r : XattrRule) (name : Name) : Bool :=
  r.client && r.key.isPrefixOf name

/-- `Rule::matches` in scope `SERVER`. -/
def XattrRule.matchesServer (r : XattrRule) (name : Name) : Bool :=
  r.server && r.prepend.isPrefixOf name

/-- `AppliedRule`. -/
inductive AppliedRule where
  | pass (name : Name)
  | deny
  | unsupported
  deriving DecidableEq

/-- `XattrMap`. -/
structure XattrMap where
  rules : List XattrRule

namespace XattrMap

/-- `map_client_xattr`; `none` is the error for an unterminated mapping. -/
def mapClientXattr (m : XattrMap) (name : Name) : Option AppliedRule :=
  (m.rules.find? (·.matchesClient name)).map fun r =>
    match r.type with
    | .okay => .pass name
    | .bad => .deny
    | .unsupported => .unsupported
    | .addPrefix => .pass (r.prepend ++ name)

/-- One name of a `listxattr` reply through the map: `none` for an unterminated mapping. -/
def mapServerXattr (m : XattrMap) (name : Name) : Option (Option Name) :=
  (m.rules.find? (·.matchesServer name)).map fun r =>
    match r.type with
    | .bad => none
    | .unsupported => none
    | .okay => some name
    | .addPrefix => some (name.drop r.prepend.length)

end XattrMap

/-- The non-empty names in a NUL-separated list. -/
def splitNames (names : List UInt8) : List Name :=
  (names.splitOn 0).filter (· ≠ [])

/-- A NUL-terminated list of names. -/
def joinNames (names : List Name) : List UInt8 := names.flatMap (· ++ [0])

/-- `XattrMap::map_server_xattrlist`: `none` for an unterminated mapping. -/
def XattrMap.mapServerXattrlist (m : XattrMap) (names : List UInt8) : Option (List UInt8) :=
  ((splitNames names).mapM m.mapServerXattr).map fun mapped =>
    let filtered := joinNames mapped.reduceOption
    if filtered = [] then [0] else filtered

/-! ## 3. The settings -/

/-- `CachePolicy`. -/
inductive CachePolicy where
  | never
  | metadata
  | auto
  | always
  deriving DecidableEq

/-- `NegotiationMode`. -/
inductive NegotiationMode where
  | never
  | auto
  | always
  deriving DecidableEq

/-- `InodeFileHandlesMode`. -/
inductive InodeFileHandlesMode where
  | never
  | prefer
  | mandatory
  deriving DecidableEq

/-- `MigrationOnError`. -/
inductive MigrationOnError where
  | abort
  | guestError
  deriving DecidableEq

/-- `MigrationMode`. -/
inductive MigrationMode where
  | findPaths
  | fileHandles
  deriving DecidableEq

/-- A UID or GID map, as the two functions requests use it through. -/
structure IdMap where
  mapGuest : UInt32 → Except IoError UInt32
  mapHost : UInt32 → Except IoError UInt32

/-- `IdMap::empty`: ids are passed through. -/
def IdMap.empty : IdMap := ⟨.ok, .ok⟩

/-- **`Config`** and the fields of `PassthroughFs` that never change.  `mountFds` says
whether the table of mount descriptors exists; `PassthroughFs::new` makes it exactly when
file handles may be used. -/
structure Config where
  entryTimeout : Nat
  attrTimeout : Nat
  cachePolicy : CachePolicy
  writeback : Bool
  xattr : Bool
  xattrmap : Option XattrMap
  xattrSecurityCapability : Option Name
  announceSubmounts : Bool
  inodeFileHandles : InodeFileHandlesMode
  readdirplus : Bool
  allowDirectIo : Bool
  guestArch : GuestArch
  killprivV2 : Bool
  posixAcl : NegotiationMode
  securityLabel : NegotiationMode
  cleanNoatime : Bool
  allowMmap : Bool
  migrationOnError : MigrationOnError
  migrationVerifyHandles : Bool
  migrationConfirmPaths : Bool
  migrationMode : MigrationMode
  uidMap : IdMap
  gidMap : IdMap

/-- Whether `PassthroughFs::new` made a table of mount descriptors. -/
def Config.mountFds (cfg : Config) : Bool :=
  cfg.inodeFileHandles != .never || cfg.migrationMode == .fileHandles

/-- `Default for Config`. -/
def Config.default : Config where
  entryTimeout := 5
  attrTimeout := 5
  cachePolicy := .auto
  writeback := false
  xattr := false
  xattrmap := none
  xattrSecurityCapability := none
  announceSubmounts := false
  inodeFileHandles := .never
  readdirplus := true
  allowDirectIo := false
  guestArch := .host
  killprivV2 := false
  posixAcl := .never
  securityLabel := .never
  cleanNoatime := true
  allowMmap := false
  migrationOnError := .abort
  migrationVerifyHandles := false
  migrationConfirmPaths := false
  migrationMode := .findPaths
  uidMap := .empty
  gidMap := .empty

end Virtiofsd
