import ReviewDesk.Git.Basic

/-!
# Repositories that are described by objects
-/

namespace ReviewDesk.Git

variable (v : Value)

def momentOf : ZonedMoment :=
  let s := v.text?.getD ""
  match ZonedMoment.ofText? s.toList with
  | some z => z
  | none => (ZonedMoment.ofText? (s ++ "T00:00:00").toList).getD ⟨⟨0⟩, none⟩

def Person.ofRecord : Person := ⟨v.getD "name", v.getD "email"⟩

/-- A commit is made and written at once by its author, if nothing else is said. -/
def Commit.ofRecord : Commit :=
  { sha := (v.getD "sha").plain
    author := .ofRecord (v.getD "author")
    committer := .ofRecord ((v.get? "committer").getD (v.getD "author"))
    message := (v.getD "message").plain
    date := momentOf (v.getD "date")
    authored := momentOf ((v.get? "authored").getD (v.getD "date"))
    parents := (v.getD "parents").texts
    files := (v.getD "files").fields }

def Branch.ofRecord : Branch :=
  { name := (v.getD "name").plain, commit := (v.getD "commit").plain,
    tracking := (v.getD "tracking").text? }

def Delta.ofRecord : Delta :=
  { before := (v.getD "a_path").text?
    after := (v.getD "b_path").text?
    change := changeType (v.getD "new_file").truthy (v.getD "deleted_file").truthy
      (v.getD "renamed_file").truthy
    patch := (v.getD "diff").text? }

def Repository.ofRecord : Repository :=
  { commits := (v.getD "commits").listed.map .ofRecord
    branches := (v.getD "branches").listed.map .ofRecord
    active := (v.getD "active").text?
    head := (v.getD "head").text?
    tags := (v.getD "tags").texts
    deltas := (v.getD "diffs").fields.map fun f => (f.1, f.2.listed.map .ofRecord) }

def Remote.ofRecord : Remote :=
  { opens := !(v.getD "invalid").truthy
    hasOrigin := !(v.getD "no_origin").truthy
    heads := (v.getD "heads").texts
    refs := (v.getD "refs").texts
    cloneFails := (v.getD "clone_fails").truthy
    pullFails := (v.getD "pull_fails").truthy
    badCommits := (v.getD "bad_commits").texts
    complete := ((v.get? "git_dir").getD (.text ".git")).truthy }

def Request.ofRecord : Request :=
  { url := v.getD "clone_url"
    branch := (v.get? "branch").getD (.text "main")
    commit := v.getD "commit_sha"
    depth := v.getD "depth"
    fresh := (v.getD "force_fresh").truthy }

end ReviewDesk.Git
