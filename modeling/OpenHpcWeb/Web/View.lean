/-
  What every page of internal/web shares: the module list of view.go, `newAppChrome`, and the
  public texts of `errorHandler` (app.go).

  The tables of `copyFor` and `detailCopyFor` are fixed by the language, which the views carry;
  of their texts only those that a modelled function puts into a view are here.
-/
import OpenHpcWeb.Web.Sessions

namespace OpenHpcWeb.Web

open OpenHpcWeb.Platform

/-- `module`. -/
structure ModuleLink where
  path : String
  label : String
  group : String
  icon : String
  deriving DecidableEq

structure PageHeading where
  eyebrow : String
  title : String
  description : String
  refreshPath : String
  refreshLabel : String
  deriving DecidableEq

structure AppChrome where
  language : String
  theme : String
  username : String
  roleLabel : String
  canManageSettings : Bool
  csrfToken : String
  pageTitle : String
  activePath : String
  available : Bool
  modules : List ModuleLink
  heading : PageHeading
  deriving DecidableEq

def modulesFor (language : String) : List ModuleLink :=
  let zh : List ModuleLink := [⟨"/dashboard", "总览", "工作台", "grid"⟩,
    ⟨"/slurm/nodes", "节点管理", "Slurm", "server"⟩,
    ⟨"/slurm/partitions", "分区管理", "Slurm", "server"⟩,
    ⟨"/slurm/jobs", "作业管理", "Slurm", "jobs"⟩,
    ⟨"/slurm/accounts", "账户与用户", "Slurm", "users"⟩,
    ⟨"/slurm/qos", "QoS 与核时", "Slurm", "gauge"⟩,
    ⟨"/ldap", "LDAP 目录", "身份", "directory"⟩,
    ⟨"/platform/users", "平台用户", "身份", "shield"⟩,
    ⟨"/slurm/config", "Slurm 配置", "系统", "settings"⟩,
    ⟨"/system/files", "文件管理", "系统", "folder"⟩,
    ⟨"/terminal", "终端", "系统", "terminal"⟩,
    ⟨"/audit", "审计日志", "系统", "audit"⟩]
  if language ≠ "en" then zh
  else
    let labels := ["Overview", "Node management", "Partition management", "Jobs",
      "Accounts & users", "QoS & core hours", "LDAP directory", "Platform users",
      "Slurm configuration", "Files", "Terminal", "Audit log"]
    let groups := ["Workspace", "Slurm", "Slurm", "Slurm", "Slurm", "Slurm", "Identity",
      "Identity", "System", "System", "System", "System"]
    zh.zipWith (fun item text => { item with label := text.1, group := text.2 })
      (labels.zip groups)

def modulesForRole (language : String) (role : UserRole) : List ModuleLink :=
  let all := modulesFor language
  if role = .admin then all
  else
    all.filter fun item =>
      item.path ∈ ["/dashboard", "/slurm/jobs", "/system/files", "/terminal"]

def moduleByPath (path language : String) : ModuleLink :=
  match (modulesFor language).find? fun item => item.path = path with
  | some item => item
  | none =>
    let labels := [("/slurm/partitions", "分区管理", "Partitions"),
      ("/slurm/users", "Slurm 用户", "Slurm users"),
      ("/slurm/associations", "关联管理", "Associations"),
      ("/slurm/core-hours", "核时管理", "Core hours")]
    match labels.find? fun label => label.1 = path with
    | some (_, zh, en) => ⟨path, if language = "en" then en else zh, "Slurm", "settings"⟩
    | none => ⟨path, path, "System", "settings"⟩

/-- The pages of the sidebar are found under their own paths. -/
example : ∀ language ∈ ["zh", "en"], ∀ item ∈ modulesFor language,
    moduleByPath item.path language = item := by decide

/-- What a page reads of its request: the cookies of the preferences, the principal of
    `requireAuthentication` and the CSRF token of its session. -/
structure PageContext where
  language : String
  theme : String
  principal : Principal
  csrfToken : String
  deriving DecidableEq

def newAppChrome (c : PageContext) (activePath : String) (available : Bool)
    (heading : PageHeading) : AppChrome where
  language := c.language
  theme := c.theme
  username := c.principal.username
  roleLabel :=
    if c.principal.role ≠ .admin then
      if c.language = "en" then "Platform user" else "平台用户"
    else if c.language = "en" then "Platform admin" else "平台管理员"
  canManageSettings := decide (c.principal.role = .admin)
  csrfToken := c.csrfToken
  pageTitle := heading.title
  activePath := activePath
  available := available
  modules := modulesForRole c.language c.principal.role
  heading := heading

/-- The text of `errorHandler` for a status. -/
def publicErrorMessage (code : Nat) (lang : String) : String :=
  if lang = "en" then
    match code with
    | 400 => "Invalid request"
    | 403 => "Request denied"
    | 413 => "Request is too large"
    | 429 => "Too many requests. Try again later."
    | _ => "Request could not be completed"
  else
    match code with
    | 400 => "请求参数无效"
    | 403 => "请求已被拒绝"
    | 413 => "请求内容过大"
    | 429 => "请求过于频繁，请稍后重试"
    | _ => "请求处理失败"

end OpenHpcWeb.Web
