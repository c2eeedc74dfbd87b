import HttpFramework.Code.HttpRequest
import HttpFramework.Code.SqlConnPool

/-! `UserVerify` by the statements that it sends and what it makes of the answers. The database is
a parameter: what it does with the text of a statement, and whether a query reaches it. -/

namespace HttpFramework.Code

/-- The rows of a result, of each the second column, which may be null. A statement that is no
query has no result. -/
abbrev Rows := Option (List (Option Bytes))

/-- Without a value the statement is refused, and nothing has changed. -/
structure Mysql (Db : Type) where
  execute : Db → Bytes → Option (Rows × Db)

namespace HttpRequest

variable {Db : Type}

def mysqlQuery (mysql : Mysql Db) (fails : Bool) (db : Db) (order : Bytes) : Option (Rows × Db) :=
  if fails then none else mysql.execute db order

def selectFront : Bytes := ascii "SELECT username, password FROM user WHERE username='"

def insertFront : Bytes := ascii "INSERT INTO user(username, password) VALUES('"

def insertText (name pwd : Bytes) : Bytes := insertFront ++ name ++ ascii "','" ++ pwd ++ ascii "')"

/-- The array has 256 bytes, of which `snprintf` uses the last for a NUL. -/
def selectOrder (name : Bytes) : Bytes := (selectFront ++ cString name ++ ascii "' LIMIT 1").take 255

def insertOrder (name pwd : Bytes) : Bytes := (insertText (cString name) (cString pwd)).take 255

/-- The INSERT. Whether it has been carried out or not, the flag is set behind it. -/
def register (mysql : Mysql Db) (fails : Bool) (name pwd : Bytes) (db : Db) : Bool × Db :=
  match mysqlQuery mysql fails db (insertOrder name pwd) with
  | none => (true, db)
  | some (_, db) => (true, db)

/-- `UserVerify`, given which of its queries fail. Without a value it has crashed on a result or a
password that is null. -/
def userVerify (mysql : Mysql Db) (selectFails insertFails : Bool) (name pwd : Bytes) (isLogin : Bool) (db : Db) :
    Option (Bool × Db) :=
  if name = [] ∨ pwd = [] then some (false, db)
  else
    match mysqlQuery mysql selectFails db (selectOrder name) with
    | none => some (false, db)
    | some (rows, db) => do
      let passwords ← (← rows).mapM id
      let flag := ({ name, pwd, isLogin } : UserVerify Unit).verify (passwords.map cString)
      return if !isLogin && flag then register mysql insertFails name pwd db else (flag, db)

end HttpRequest

end HttpFramework.Code
