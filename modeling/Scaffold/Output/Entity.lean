import Scaffold.Migration.Key
import Scaffold.Output.Plan

/-!
# Files of an entity

The files that are generated for one entity, kind by kind.  Each kind plans its files from the
descriptor of the entity; a kind may be given the name of its class.
-/

namespace Scaffold

/-- The kinds of files of an entity, in the order in which they are generated. -/
inductive FileKind where
  | model | migration | controller | request | service | repository | factory | seeder | test
  deriving DecidableEq, Repr

namespace FileKind

/-- The name of a kind. -/
def name : FileKind → String
  | model => "model"
  | migration => "migration"
  | controller => "controller"
  | request => "request"
  | service => "service"
  | repository => "repository"
  | factory => "factory"
  | seeder => "seeder"
  | test => "test"

/-- Every kind, in order. -/
def all : List FileKind :=
  [model, migration, controller, request, service, repository, factory, seeder, test]

/-- The kind of a name. -/
def ofName? (name : String) : Option FileKind :=
  all.find? (·.name == name)

/-- The kinds of names, none of which may be unknown. -/
def ofNames (names : List String) : Except RenderError (List FileKind) :=
  match distinct (names.filter fun name => (ofName? name).isNone) with
  | [] => .ok (names.filterMap ofName?)
  | unknown => .error (.unknownKinds (sortedTexts unknown))

/-- The kinds that are generated unless others are chosen. -/
def standard (config : Config) : List FileKind :=
  all.filter fun kind => kind != .test || config.generateTests

end FileKind

namespace Descriptor

/-- The methods of a model for its relations, each after an empty line. -/
def relationshipBlock (descriptor : Descriptor) : String :=
  Text.joinLines (descriptor.methods.flatMap fun method =>
    "" :: Text.indentLines 4 (Text.lines method.docblock) ++
      [indentation 1 ++ method.signature, indentation 1 ++ "\x7b", indentation 2 ++ method.body,
        indentation 1 ++ "\x7d"])

/-- The plan of the model. -/
def modelPlan (config : Config) (name : String) (descriptor : Descriptor) : FilePlan :=
  let module := descriptor.module
  let modelName := Text.nameOr (some name) descriptor.entity
  let factoryName := descriptor.entity ++ "Factory"
  let own := config.importOf [module, "Models", modelName]
  let imports :=
    config.importOf [module, "Database", "Factories", factoryName] ::
      descriptor.modelImports.filter (· != own)
  ⟨"Models/" ++ name ++ ".php", "model",
    [("namespace", config.namespaceOf [module, "Models"]), ("module", module),
      ("modelName", modelName), ("table", descriptor.table),
      ("imports", Text.joinLines (distinct imports)),
      ("fillable", descriptor.fillableDeclaration), ("factoryName", factoryName),
      ("relationships", descriptor.relationshipBlock)]⟩

/-- The plan of the migration with a key. -/
def migrationPlan (key : String) (descriptor : Descriptor) : FilePlan :=
  let table := descriptor.table
  ⟨"Database/Migrations/" ++ Migration.fileName key table, "migration",
    [("className", "Create" ++ Text.studlyCase table ++ "Table"), ("table", table),
      ("schema", Text.joinLines (Text.indentLines 12 descriptor.schema.lines))]⟩

/-- The plan of the controller, which uses a form request. -/
def controllerPlan (config : Config) (name : String) (request : Option String)
    (descriptor : Descriptor) : FilePlan :=
  let module := descriptor.module
  let entity := descriptor.entity
  let requestName := Text.nameOr request (entity ++ "Request")
  let contract := entity ++ "ServiceInterface"
  ⟨"Http/Controllers/" ++ name ++ ".php", "controller",
    [("namespace", config.namespaceOf [module, "Http", "Controllers"]), ("module", module),
      ("controllerName", Text.nameOr (some name) (entity ++ "Controller")), ("modelName", entity),
      ("requestName", requestName),
      ("requestClass", config.namespaceOf [module, "Http", "Requests", requestName]),
      ("serviceInterface", contract),
      ("serviceInterfaceClass", config.namespaceOf [module, "Services", "Contracts", contract]),
      ("serviceInstance", Text.camelCase entity ++ "Service")]⟩

/-- The lines of a form request for its rules. -/
def rulesBlock (descriptor : Descriptor) : String :=
  Text.joinLines (descriptor.rules.map fun (field, rule) =>
    indentation 3 ++ Php.string field ++ " => " ++ Php.string rule ++ ",")

/-- The plan of the form request. -/
def requestPlan (config : Config) (name : String) (descriptor : Descriptor) : FilePlan :=
  ⟨"Http/Requests/" ++ name ++ ".php", "request",
    [("namespace", config.namespaceOf [descriptor.module, "Http", "Requests"]),
      ("requestName", Text.nameOr (some name) (descriptor.entity ++ "Request")),
      ("rules", descriptor.rulesBlock)]⟩

/-- The plans of the service and its contract. -/
def servicePlans (config : Config) (name : Option String) (descriptor : Descriptor) :
    List FilePlan :=
  let module := descriptor.module
  let entity := descriptor.entity
  let service := Text.nameOr name (entity ++ "Service")
  let contract := service ++ "Interface"
  let repositoryContract := entity ++ "RepositoryInterface"
  let values := fun (parts : List String) =>
    [("namespace", config.namespaceOf (module :: parts)), ("module", module),
      ("modelName", entity), ("modelClass", config.modelClass module entity),
      ("serviceName", service), ("serviceInterfaceName", contract),
      ("serviceInterfaceClass", config.namespaceOf [module, "Services", "Contracts", contract]),
      ("repositoryInterfaceName", repositoryContract),
      ("repositoryInterfaceClass",
        config.namespaceOf [module, "Repositories", "Contracts", repositoryContract]),
      ("repositoryInstance", Text.camelCase (entity ++ "Repository"))]
  [⟨"Services/Contracts/" ++ contract ++ ".php", "service-interface",
      values ["Services", "Contracts"]⟩,
    ⟨"Services/" ++ service ++ ".php", "service", values ["Services"]⟩]

/-- The plans of the repository and its contract. -/
def repositoryPlans (config : Config) (name : Option String) (descriptor : Descriptor) :
    List FilePlan :=
  let module := descriptor.module
  let entity := descriptor.entity
  let repository := Text.nameOr name (entity ++ "Repository")
  let contract := repository ++ "Interface"
  let values := fun (parts : List String) =>
    [("namespace", config.namespaceOf (module :: parts)), ("module", module),
      ("modelName", entity), ("modelClass", config.modelClass module entity),
      ("modelVariable", Text.camelCase entity), ("repositoryName", repository),
      ("repositoryInterfaceName", contract),
      ("repositoryInterfaceClass",
        config.namespaceOf [module, "Repositories", "Contracts", contract])]
  [⟨"Repositories/Contracts/" ++ contract ++ ".php", "repository-interface",
      values ["Repositories", "Contracts"]⟩,
    ⟨"Repositories/" ++ repository ++ ".php", "repository", values ["Repositories"]⟩]

/-- The plan of the factory. -/
def factoryPlan (config : Config) (descriptor : Descriptor) : FilePlan :=
  let module := descriptor.module
  let entity := descriptor.entity
  let own := "use " ++ config.modelClass module entity ++ ";"
  let definition := descriptor.factory.map fun (field, expression) =>
    indentation 3 ++ Php.string field ++ " => " ++ expression.expression ++ ","
  ⟨"Database/Factories/" ++ entity ++ "Factory.php", "factory",
    [("namespace", config.namespaceOf [module, "Database", "Factories"]), ("modelName", entity),
      ("modelClass", config.modelClass module entity), ("factoryName", entity ++ "Factory"),
      ("imports", Text.joinLines (descriptor.factoryImports.filter (· != own))),
      ("definition", Text.joinLines definition)]⟩

/-- The number of records that a seeder makes. -/
def seederCount : Nat :=
  10

/-- The plan of the seeder. -/
def seederPlan (config : Config) (descriptor : Descriptor) : FilePlan :=
  let module := descriptor.module
  let entity := descriptor.entity
  ⟨"Database/Seeders/" ++ entity ++ "Seeder.php", "seeder",
    [("namespace", config.namespaceOf [module, "Database", "Seeders"]),
      ("seederName", entity ++ "Seeder"), ("modelName", entity),
      ("modelClass", config.modelClass module entity),
      ("count", Decimal.writtenInt seederCount)]⟩

/-- The plan of the test. -/
def testPlan (config : Config) (descriptor : Descriptor) : FilePlan :=
  let module := descriptor.module
  let entity := descriptor.entity
  ⟨"Tests/Unit/" ++ entity ++ "Test.php", "test",
    [("namespace", config.namespaceOf [module, "Tests", "Unit"]), ("testName", entity ++ "Test"),
      ("modelName", entity), ("modelClass", config.modelClass module entity),
      ("modelVariable", Text.camelCase entity), ("snakeModel", Text.snakeCase entity),
      ("table", descriptor.table)]⟩

/-- The plans of the files of one kind. -/
def plans (config : Config) (key : Option String) (names : Keyed String)
    (descriptor : Descriptor) (kind : FileKind) : List (Except RenderError FilePlan) :=
  let entity := descriptor.entity
  let given := Keyed.get? names kind.name
  match kind with
  | .model => [.ok (descriptor.modelPlan config (given.getD entity))]
  | .migration =>
      match key with
      | some key => [.ok (descriptor.migrationPlan key)]
      | none => [.error (.keyMissing entity)]
  | .controller =>
      let request := Keyed.get? names "request"
      [.ok (descriptor.controllerPlan config (given.getD (entity ++ "Controller")) request)]
  | .request => [.ok (descriptor.requestPlan config (given.getD (entity ++ "Request")))]
  | .service => (descriptor.servicePlans config given).map .ok
  | .repository => (descriptor.repositoryPlans config given).map .ok
  | .factory => [.ok (descriptor.factoryPlan config)]
  | .seeder => [.ok (descriptor.seederPlan config)]
  | .test => [.ok (descriptor.testPlan config)]

/-- The plans of the files of chosen kinds, in the order of the kinds. -/
def allPlans (config : Config) (key : Option String) (kinds : List FileKind)
    (names : Keyed String) (descriptor : Descriptor) : List (Except RenderError FilePlan) :=
  (FileKind.all.filter (kinds.contains ·)).flatMap (descriptor.plans config key names)

end Descriptor

/-- Generated files, or what stopped their generation, with what was logged before. -/
structure OutputFiles where
  files : Except RenderError (List OutputFile)
  logs : List LogRecord := []

/-- The rendered files of an entity, or of the whole module. -/
def Rendering.output (rendering : Rendering) (entity : Option String) : OutputFiles :=
  let file := fun (pair : String × String) =>
    ({ path := pair.1, content := pair.2, aggregate := entity.isNone, entity } : OutputFile)
  ⟨rendering.files.map (·.map file), rendering.logs⟩

/-- Generate the files of chosen kinds of an entity. -/
def Descriptor.generate (config : Config) (shelf : Stub.Shelf) (key : Option String)
    (kinds : List FileKind) (names : Keyed String) (descriptor : Descriptor) : OutputFiles :=
  (renderPlans shelf [] [] (descriptor.allPlans config key kinds names)).output
    (some descriptor.entity)

/-- Generate the files of an entity of the kinds with given names, or of the standard kinds. -/
def Descriptor.generateNamed (config : Config) (shelf : Stub.Shelf) (key : Option String)
    (components : Option (List String)) (names : Keyed String) (descriptor : Descriptor) :
    OutputFiles :=
  match components.elim (.ok (FileKind.standard config)) FileKind.ofNames with
  | .error error => ⟨.error error, []⟩
  | .ok kinds => descriptor.generate config shelf key kinds names

end Scaffold
