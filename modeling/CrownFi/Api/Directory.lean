import CrownFi.Api.Primitives
import Mathlib.Data.List.Sort

/-!
# CrownFi.Api.Directory

The tables every handler reads and the handlers of the modelled subsystems never
write: people, their accounts and their roles. The clock stands with them, since
a handler reads it the same way.
-/

namespace CrownFi.Api

/-! ### People -/

inductive UserStatus
  | invited
  | active
  | suspended
  | deleted
  deriving DecidableEq, Repr

inductive Network
  | testnet
  | «public»
  | futurenet
  | standalone
  deriving DecidableEq, Repr

/-- The status of an administrator or a member. -/
inductive MemberStatus
  | invited
  | active
  | suspended
  | removed
  deriving DecidableEq, Repr

inductive Role
  | owner
  | admin
  | editor
  | viewer
  deriving DecidableEq, Repr

structure User where
  id : Uuid
  status : UserStatus
  deriving DecidableEq, Repr

structure StellarAccount where
  id : Uuid
  userId : Uuid
  network : Network
  address : String
  isPrimary : Bool
  verified : Bool
  createdAt : Int
  deriving DecidableEq, Repr

structure SiteAdministrator where
  userId : Uuid
  role : Role
  status : MemberStatus
  deriving DecidableEq, Repr

structure OrganizationMember where
  organizationId : Uuid
  userId : Uuid
  role : Role
  status : MemberStatus
  deriving DecidableEq, Repr

structure Directory where
  clock : Int
  users : List User
  stellarAccounts : List StellarAccount
  siteAdministrators : List SiteAdministrator
  organizationMembers : List OrganizationMember
  deriving DecidableEq, Repr

namespace Directory

def userActive (d : Directory) (user : Uuid) : Bool :=
  d.users.any fun u => u.id = user && u.status = .active

def verifiedOn (d : Directory) (network : Network) (user : Uuid) : Bool :=
  d.stellarAccounts.any fun a => a.userId = user && a.network = network && a.verified

/-- The account of a user that stands for them: `ORDER BY is_primary DESC, created_at, id`. -/
def ownerAccount (d : Directory) (user : Uuid) : Option StellarAccount :=
  let accounts := d.stellarAccounts.filter fun a => a.userId = user && a.network = .testnet && a.verified
  (accounts.insertionSort fun a b =>
    (a.isPrimary && !b.isPrimary) ∨
      (a.isPrimary = b.isPrimary ∧ (a.createdAt < b.createdAt ∨
        (a.createdAt = b.createdAt ∧ a.id.toNat ≤ b.id.toNat)))).head?

def siteAdministrator (d : Directory) (user : Uuid) : Bool :=
  d.siteAdministrators.any fun a =>
    a.userId = user && a.status = .active && (a.role = .owner || a.role = .admin)

def member (d : Directory) (organization user : Uuid) (roles : List Role) : Bool :=
  d.organizationMembers.any fun m =>
    m.organizationId = organization && m.userId = user && m.status = .active && roles.contains m.role

/-- The query of `require_organization_editor` in the modules that admit only members. -/
def memberEditor (d : Directory) (organization user : Uuid) : Bool :=
  d.member organization user [.owner, .admin, .editor]

/-- The query of `require_organization_editor` in the modules that also admit the
administrators of the site. -/
def organizationEditor (d : Directory) (organization user : Uuid) : Bool :=
  d.siteAdministrator user || d.memberEditor organization user

end Directory

end CrownFi.Api
