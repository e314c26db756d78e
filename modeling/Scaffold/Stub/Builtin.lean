import Scaffold.Keyed
import Scaffold.Text.Lines

/-!
# Built-in stubs

The stubs from which files are rendered when no stub of their name is supplied.  A placeholder such
as the one of the key `namespace` is written between double braces.
-/

namespace Scaffold.Stub

/-- A stub of lines, each with a line feed. -/
def ofLines (lines : List String) : String :=
  Text.joinLines lines ++ "\n"

/-- The model of an entity. -/
def modelStub : String :=
  ofLines [
    "<?php",
    "",
    "namespace \x7b\x7b namespace \x7d\x7d;",
    "",
    "use Illuminate\\Database\\Eloquent\\Factories\\HasFactory;",
    "use Illuminate\\Database\\Eloquent\\Model;",
    "\x7b\x7b imports \x7d\x7d",
    "",
    "class \x7b\x7b modelName \x7d\x7d extends Model",
    "\x7b",
    "    use HasFactory;",
    "",
    "    protected $table = '\x7b\x7b table \x7d\x7d';",
    "",
    "    \x7b\x7b fillable \x7d\x7d",
    "",
    "    protected static function newFactory(): \x7b\x7b factoryName \x7d\x7d",
    "    \x7b",
    "        return \x7b\x7b factoryName \x7d\x7d::new();",
    "    \x7d",
    "\x7b\x7b relationships \x7d\x7d",
    "\x7d"]

/-- The migration that creates the table of an entity. -/
def migrationStub : String :=
  ofLines [
    "<?php",
    "",
    "use Illuminate\\Database\\Migrations\\Migration;",
    "use Illuminate\\Database\\Schema\\Blueprint;",
    "use Illuminate\\Support\\Facades\\Schema;",
    "",
    "class \x7b\x7b className \x7d\x7d extends Migration",
    "\x7b",
    "    /**",
    "     * Run the migrations.",
    "     */",
    "    public function up(): void",
    "    \x7b",
    "        Schema::create('\x7b\x7b table \x7d\x7d', function (Blueprint $table) \x7b",
    "\x7b\x7b schema \x7d\x7d",
    "        \x7d);",
    "    \x7d",
    "",
    "    /**",
    "     * Reverse the migrations.",
    "     */",
    "    public function down(): void",
    "    \x7b",
    "        Schema::dropIfExists('\x7b\x7b table \x7d\x7d');",
    "    \x7d",
    "\x7d"]

/-- The controller of an entity. -/
def controllerStub : String :=
  ofLines [
    "<?php",
    "",
    "namespace \x7b\x7b namespace \x7d\x7d;",
    "",
    "use Illuminate\\Http\\JsonResponse;",
    "use Illuminate\\Routing\\Controller;",
    "use \x7b\x7b requestClass \x7d\x7d;",
    "use \x7b\x7b serviceInterfaceClass \x7d\x7d;",
    "",
    "class \x7b\x7b controllerName \x7d\x7d extends Controller",
    "\x7b",
    "    public function __construct(protected \x7b\x7b serviceInterface \x7d\x7d $\x7b\x7b serviceInstance \x7d\x7d)",
    "    \x7b",
    "    \x7d",
    "",
    "    public function index(): JsonResponse",
    "    \x7b",
    "        return response()->json($this->\x7b\x7b serviceInstance \x7d\x7d->all());",
    "    \x7d",
    "",
    "    public function store(\x7b\x7b requestName \x7d\x7d $request): JsonResponse",
    "    \x7b",
    "        return response()->json($this->\x7b\x7b serviceInstance \x7d\x7d->create($request->validated()), 201);",
    "    \x7d",
    "",
    "    public function show(int $id): JsonResponse",
    "    \x7b",
    "        return response()->json($this->\x7b\x7b serviceInstance \x7d\x7d->find($id));",
    "    \x7d",
    "",
    "    public function update(\x7b\x7b requestName \x7d\x7d $request, int $id): JsonResponse",
    "    \x7b",
    "        return response()->json($this->\x7b\x7b serviceInstance \x7d\x7d->update($id, $request->validated()));",
    "    \x7d",
    "",
    "    public function destroy(int $id): JsonResponse",
    "    \x7b",
    "        $this->\x7b\x7b serviceInstance \x7d\x7d->delete($id);",
    "",
    "        return response()->json(null, 204);",
    "    \x7d",
    "\x7d"]

/-- The form request of an entity. -/
def requestStub : String :=
  ofLines [
    "<?php",
    "",
    "namespace \x7b\x7b namespace \x7d\x7d;",
    "",
    "use Illuminate\\Foundation\\Http\\FormRequest;",
    "",
    "class \x7b\x7b requestName \x7d\x7d extends FormRequest",
    "\x7b",
    "    public function authorize(): bool",
    "    \x7b",
    "        return true;",
    "    \x7d",
    "",
    "    public function rules(): array",
    "    \x7b",
    "        return [",
    "\x7b\x7b rules \x7d\x7d",
    "        ];",
    "    \x7d",
    "\x7d"]

/-- The service of an entity. -/
def serviceStub : String :=
  ofLines [
    "<?php",
    "",
    "namespace \x7b\x7b namespace \x7d\x7d;",
    "",
    "use Illuminate\\Database\\Eloquent\\Collection;",
    "use \x7b\x7b modelClass \x7d\x7d;",
    "use \x7b\x7b repositoryInterfaceClass \x7d\x7d;",
    "use \x7b\x7b serviceInterfaceClass \x7d\x7d;",
    "",
    "class \x7b\x7b serviceName \x7d\x7d implements \x7b\x7b serviceInterfaceName \x7d\x7d",
    "\x7b",
    "    public function __construct(protected \x7b\x7b repositoryInterfaceName \x7d\x7d $\x7b\x7b repositoryInstance \x7d\x7d)",
    "    \x7b",
    "    \x7d",
    "",
    "    public function all(): Collection",
    "    \x7b",
    "        return $this->\x7b\x7b repositoryInstance \x7d\x7d->all();",
    "    \x7d",
    "",
    "    public function find(int $id): ?\x7b\x7b modelName \x7d\x7d",
    "    \x7b",
    "        return $this->\x7b\x7b repositoryInstance \x7d\x7d->find($id);",
    "    \x7d",
    "",
    "    public function create(array $data): \x7b\x7b modelName \x7d\x7d",
    "    \x7b",
    "        return $this->\x7b\x7b repositoryInstance \x7d\x7d->create($data);",
    "    \x7d",
    "",
    "    public function update(int $id, array $data): ?\x7b\x7b modelName \x7d\x7d",
    "    \x7b",
    "        return $this->\x7b\x7b repositoryInstance \x7d\x7d->update($id, $data);",
    "    \x7d",
    "",
    "    public function delete(int $id): bool",
    "    \x7b",
    "        return $this->\x7b\x7b repositoryInstance \x7d\x7d->delete($id);",
    "    \x7d",
    "\x7d"]

/-- The contract of a service. -/
def serviceInterfaceStub : String :=
  ofLines [
    "<?php",
    "",
    "namespace \x7b\x7b namespace \x7d\x7d;",
    "",
    "use Illuminate\\Database\\Eloquent\\Collection;",
    "use \x7b\x7b modelClass \x7d\x7d;",
    "",
    "interface \x7b\x7b serviceInterfaceName \x7d\x7d",
    "\x7b",
    "    public function all(): Collection;",
    "",
    "    public function find(int $id): ?\x7b\x7b modelName \x7d\x7d;",
    "",
    "    public function create(array $data): \x7b\x7b modelName \x7d\x7d;",
    "",
    "    public function update(int $id, array $data): ?\x7b\x7b modelName \x7d\x7d;",
    "",
    "    public function delete(int $id): bool;",
    "\x7d"]

/-- The repository of an entity. -/
def repositoryStub : String :=
  ofLines [
    "<?php",
    "",
    "namespace \x7b\x7b namespace \x7d\x7d;",
    "",
    "use Illuminate\\Database\\Eloquent\\Collection;",
    "use \x7b\x7b modelClass \x7d\x7d;",
    "use \x7b\x7b repositoryInterfaceClass \x7d\x7d;",
    "",
    "class \x7b\x7b repositoryName \x7d\x7d implements \x7b\x7b repositoryInterfaceName \x7d\x7d",
    "\x7b",
    "    public function __construct(protected \x7b\x7b modelName \x7d\x7d $\x7b\x7b modelVariable \x7d\x7d)",
    "    \x7b",
    "    \x7d",
    "",
    "    public function all(): Collection",
    "    \x7b",
    "        return $this->\x7b\x7b modelVariable \x7d\x7d->newQuery()->get();",
    "    \x7d",
    "",
    "    public function find(int $id): ?\x7b\x7b modelName \x7d\x7d",
    "    \x7b",
    "        return $this->\x7b\x7b modelVariable \x7d\x7d->newQuery()->find($id);",
    "    \x7d",
    "",
    "    public function create(array $data): \x7b\x7b modelName \x7d\x7d",
    "    \x7b",
    "        return $this->\x7b\x7b modelVariable \x7d\x7d->newQuery()->create($data);",
    "    \x7d",
    "",
    "    public function update(int $id, array $data): ?\x7b\x7b modelName \x7d\x7d",
    "    \x7b",
    "        $\x7b\x7b modelVariable \x7d\x7d = $this->find($id);",
    "        $\x7b\x7b modelVariable \x7d\x7d?->update($data);",
    "",
    "        return $\x7b\x7b modelVariable \x7d\x7d;",
    "    \x7d",
    "",
    "    public function delete(int $id): bool",
    "    \x7b",
    "        return (bool) $this->find($id)?->delete();",
    "    \x7d",
    "\x7d"]

/-- The contract of a repository. -/
def repositoryInterfaceStub : String :=
  ofLines [
    "<?php",
    "",
    "namespace \x7b\x7b namespace \x7d\x7d;",
    "",
    "use Illuminate\\Database\\Eloquent\\Collection;",
    "use \x7b\x7b modelClass \x7d\x7d;",
    "",
    "interface \x7b\x7b repositoryInterfaceName \x7d\x7d",
    "\x7b",
    "    public function all(): Collection;",
    "",
    "    public function find(int $id): ?\x7b\x7b modelName \x7d\x7d;",
    "",
    "    public function create(array $data): \x7b\x7b modelName \x7d\x7d;",
    "",
    "    public function update(int $id, array $data): ?\x7b\x7b modelName \x7d\x7d;",
    "",
    "    public function delete(int $id): bool;",
    "\x7d"]

/-- The factory of an entity. -/
def factoryStub : String :=
  ofLines [
    "<?php",
    "",
    "namespace \x7b\x7b namespace \x7d\x7d;",
    "",
    "use Illuminate\\Database\\Eloquent\\Factories\\Factory;",
    "use \x7b\x7b modelClass \x7d\x7d;",
    "\x7b\x7b imports \x7d\x7d",
    "",
    "class \x7b\x7b factoryName \x7d\x7d extends Factory",
    "\x7b",
    "    protected $model = \x7b\x7b modelName \x7d\x7d::class;",
    "",
    "    public function definition(): array",
    "    \x7b",
    "        return [",
    "\x7b\x7b definition \x7d\x7d",
    "        ];",
    "    \x7d",
    "\x7d"]

/-- The seeder of an entity. -/
def seederStub : String :=
  ofLines [
    "<?php",
    "",
    "namespace \x7b\x7b namespace \x7d\x7d;",
    "",
    "use Illuminate\\Database\\Seeder;",
    "use \x7b\x7b modelClass \x7d\x7d;",
    "",
    "class \x7b\x7b seederName \x7d\x7d extends Seeder",
    "\x7b",
    "    public function run(): void",
    "    \x7b",
    "        \x7b\x7b modelName \x7d\x7d::factory()->count(\x7b\x7b count \x7d\x7d)->create();",
    "    \x7d",
    "\x7d"]

/-- The seeder that calls the seeders of a module. -/
def moduleSeederStub : String :=
  ofLines [
    "<?php",
    "",
    "namespace \x7b\x7b namespace \x7d\x7d;",
    "",
    "use Illuminate\\Database\\Seeder;",
    "",
    "class \x7b\x7b seederName \x7d\x7d extends Seeder",
    "\x7b",
    "    public function run(): void",
    "    \x7b",
    "        $this->call([",
    "\x7b\x7b seeders \x7d\x7d",
    "        ]);",
    "    \x7d",
    "\x7d"]

/-- The service provider of a module. -/
def providerStub : String :=
  ofLines [
    "<?php",
    "",
    "namespace \x7b\x7b namespace \x7d\x7d;",
    "",
    "use Illuminate\\Support\\ServiceProvider;",
    "\x7b\x7b imports \x7d\x7d",
    "",
    "class \x7b\x7b providerName \x7d\x7d extends ServiceProvider",
    "\x7b",
    "    public function register(): void",
    "    \x7b",
    "        $this->mergeConfigFrom(__DIR__.'/../config/config.php', '\x7b\x7b snakeModule \x7d\x7d');",
    "\x7b\x7b bindings \x7d\x7d",
    "    \x7d",
    "",
    "    public function boot(): void",
    "    \x7b",
    "        $this->loadMigrationsFrom(__DIR__.'/../Database/Migrations');",
    "\x7b\x7b routeLoaders \x7d\x7d",
    "    \x7d",
    "\x7d"]

/-- The routes of the interface of a module. -/
def routeApiStub : String :=
  ofLines [
    "<?php",
    "",
    "use Illuminate\\Support\\Facades\\Route;",
    "\x7b\x7b imports \x7d\x7d",
    "",
    "Route::middleware('api')->prefix('api/\x7b\x7b kebabModule \x7d\x7d')->group(function () \x7b",
    "\x7b\x7b routes \x7d\x7d",
    "\x7d);"]

/-- The routes of the pages of a module. -/
def routeWebStub : String :=
  ofLines [
    "<?php",
    "",
    "use Illuminate\\Support\\Facades\\Route;",
    "\x7b\x7b imports \x7d\x7d",
    "",
    "Route::middleware('web')->prefix('\x7b\x7b kebabModule \x7d\x7d')->group(function () \x7b",
    "\x7b\x7b routes \x7d\x7d",
    "\x7d);"]

/-- The test of an entity. -/
def testStub : String :=
  ofLines [
    "<?php",
    "",
    "namespace \x7b\x7b namespace \x7d\x7d;",
    "",
    "use Illuminate\\Foundation\\Testing\\RefreshDatabase;",
    "use Tests\\TestCase;",
    "use \x7b\x7b modelClass \x7d\x7d;",
    "",
    "class \x7b\x7b testName \x7d\x7d extends TestCase",
    "\x7b",
    "    use RefreshDatabase;",
    "",
    "    public function test_\x7b\x7b snakeModel \x7d\x7d_can_be_created_from_its_factory(): void",
    "    \x7b",
    "        $\x7b\x7b modelVariable \x7d\x7d = \x7b\x7b modelName \x7d\x7d::factory()->create();",
    "",
    "        $this->assertDatabaseHas('\x7b\x7b table \x7d\x7d', ['id' => $\x7b\x7b modelVariable \x7d\x7d->getKey()]);",
    "    \x7d",
    "\x7d"]

/-- The settings of a module. -/
def configStub : String :=
  ofLines [
    "<?php",
    "",
    "return [",
    "    'name' => '\x7b\x7b module \x7d\x7d',",
    "];"]

/-- The built-in stubs under their names. -/
def builtin : Keyed String :=
  [("model", modelStub),
    ("migration", migrationStub),
    ("controller", controllerStub),
    ("request", requestStub),
    ("service", serviceStub),
    ("service-interface", serviceInterfaceStub),
    ("repository", repositoryStub),
    ("repository-interface", repositoryInterfaceStub),
    ("factory", factoryStub),
    ("seeder", seederStub),
    ("module-seeder", moduleSeederStub),
    ("provider", providerStub),
    ("route-api", routeApiStub),
    ("route-web", routeWebStub),
    ("test", testStub),
    ("config", configStub)]

end Scaffold.Stub
