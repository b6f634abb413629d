import RecordMapper.Store.Manager

/-!
Managers whose store does its work and whose replies differ from it. They claim a bulk path.
-/

namespace RecordMapper.Bench

/-- How a reply differs from what the store replied. -/
inductive Alteration where
  /-- A revision entry is added to every record. -/
  | inject
  /-- Every record is empty. -/
  | hollow
  /-- The write is reported as refused. -/
  | refuse
  /-- The last record of a batch is missing. -/
  | short
  /-- It does not differ. -/
  | faithful
  deriving DecidableEq

namespace Alteration

/-- Every other name stands for faithful replies. -/
def ofName : String → Alteration
  | "inject" => inject
  | "hollow" => hollow
  | "refuse" => refuse
  | "short" => short
  | _ => faithful

def one : Integer := ⟨.i32, 1, by decide, by decide⟩

def record : Alteration → Record → Except Failure Record
  | inject, r => .ok (r.put "rev" (.int one))
  | hollow, r => .ok (.empty r.name)
  | refuse, _ => .error (.reported .store "store refused")
  | short, r | faithful, r => .ok r

def batch : Alteration → List Record → Except Failure (List Record)
  | short, rs => .ok rs.dropLast
  | a, rs => rs.mapM a.record

variable {σ : Type}

def manager (a : Alteration) (m : RecordManager σ) : RecordManager σ :=
  { m with
    bulk := true
    insert := fun r => do Action.ofExcept (a.record (← m.insert r))
    insertFor := fun r nanos => do Action.ofExcept (a.record (← m.insertFor r nanos))
    insertAll := fun rs => do Action.ofExcept (a.batch (← m.insertAll rs))
    update := fun r => do Action.ofExcept (a.record (← m.update r)) }

end Alteration

end RecordMapper.Bench
