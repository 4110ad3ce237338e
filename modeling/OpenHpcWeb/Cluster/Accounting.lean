/-
  The records of internal/cluster/accounting.go.
-/
import OpenHpcWeb.Go.Std

namespace OpenHpcWeb.Cluster

open OpenHpcWeb.Go

structure Account where
  name : String
  description : String
  organization : String
  coordinatorCount : Nat
  associationCount : Nat
  deriving DecidableEq

structure SlurmUser where
  name : String
  administratorLevel : String
  defaultAccount : String
  defaultWCKey : String
  associationCount : Nat
  deriving DecidableEq

structure AccountDirectory where
  accounts : List Account
  users : List SlurmUser

@[ext] structure Association where
  id : GoInt
  cluster : String
  account : String
  user : String
  partition : String
  deriving DecidableEq

end OpenHpcWeb.Cluster
