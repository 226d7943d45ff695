import ServiceKit.Text.Utf8

namespace ServiceKit.Import
open Text (Bytes)

structure ArchiveEntry where
  name : Bytes
  method : Nat
  size : Nat
  place : Nat
deriving DecidableEq, Repr

namespace Archive

def little : Bytes → Nat
  | [] => 0
  | b :: bs => b.toNat + 256 * little bs

def field (bs : Bytes) (place width : Nat) : Nat := little ((bs.drop place).take width)

def begins (mark bs : Bytes) : Bool := bs.take mark.length == mark

def endMark : Bytes := [0x50,0x4b,5,6]
def entryMark : Bytes := [0x50,0x4b,1,2]
def fileMark : Bytes := [0x50,0x4b,3,4]

-- The last place at which the closing part of an archive begins.
def closing? : Bytes → Option Bytes
  | [] => none
  | b :: bs => (closing? bs).or (if begins endMark (b :: bs) && decide (22 ≤ bs.length + 1) then some (b :: bs) else none)

def entries : Nat → Bytes → Option (List ArchiveEntry)
  | 0,_ => some []
  | count + 1,bs =>
    if !begins entryMark bs || bs.length < 46 then none
    else
      let nameLength := field bs 28 2
      let e : ArchiveEntry := ⟨(bs.drop 46).take nameLength,field bs 10 2,field bs 20 4,field bs 42 4⟩
      (entries count (bs.drop (46 + nameLength + field bs 30 2 + field bs 32 2))).map (e :: ·)

def directory? (bs : Bytes) : Option (List ArchiveEntry) := do
  let closing ← closing? bs
  entries (field closing 10 2) (bs.drop (field closing 16 4))

def content? (bs : Bytes) (e : ArchiveEntry) : Option Bytes :=
  let bs := bs.drop e.place
  if !begins fileMark bs || e.method != 0 then none
  else
    let body := bs.drop (30 + field bs 26 2 + field bs 28 2)
    if body.length < e.size then none else some (body.take e.size)

def file? (bs : Bytes) (directory : List ArchiveEntry) (name : String) : Option (Option Bytes) :=
  (directory.reverse.find? fun e => e.name == Text.utf8 name).map (content? bs)

end Archive
end ServiceKit.Import
